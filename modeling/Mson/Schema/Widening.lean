import Mson.Value

/-!
# Widening a schema by null

`widen` lets a schema accept null besides what it accepts. A schema with a type or with a list of
choices gets null as one more of them; any other schema that constrains anything becomes one
branch of an `anyOf` whose other branch is null, with the description left outside. A schema that
already has its null stays as it is.
-/
namespace Mson

/-- A schema: its keywords in order. -/
abbrev Schema := Mapping Value

/-- The value of a keyword is not a list that could be searched for null. -/
inductive WideningFault where
  | choicesNotAList
  | alternativesNotAList
  deriving DecidableEq, Repr

namespace Schema

def nullType : String := "null"

/-- The keyword that constrains nothing. -/
def descriptionKeyword : String := "description"

/-- The schema that accepts null alone. -/
def onlyNull : Schema := [("type", .string nullType)]

def isOnlyNull : Value → Bool
  | .object [("type", .string name)] => name = nullType
  | _ => false

/-- The items of a list of choices; an object given instead of a list counts as the list of its
names. -/
def choices : Value → Except WideningFault (List Value)
  | .array items => .ok items
  | .object entries => .ok ((Mapping.names entries).map Value.string)
  | _ => .error .choicesNotAList

def hasNullBranch : Option Value → Except WideningFault Bool
  | none => .ok false
  | some (.array branches) => .ok (branches.any isOnlyNull)
  | some _ => .error .alternativesNotAList

/-- The keywords that constrain what is accepted. -/
def constraints (schema : Schema) : Schema := Mapping.erase schema descriptionKeyword

def annotations (schema : Schema) : Schema :=
  schema.filter fun entry => entry.1 = descriptionKeyword

def isNamedNull : Value → Bool
  | .string name => name = nullType
  | _ => false

/-- Accepts null besides what the schema accepts. -/
def widen (schema : Schema) : Except WideningFault Schema :=
  match Mapping.get? schema "type" with
  | some (.string name) =>
      .ok (if name = nullType then schema
        else Mapping.put schema "type" (.array [.string name, .string nullType]))
  | some (.array types) =>
      .ok (if types.any isNamedNull then schema
        else Mapping.put schema "type" (.array (types ++ [.string nullType])))
  | _ =>
      match Mapping.get? schema "enum" with
      | some value => do
          let items ← choices value
          return if items.any Value.isNull then schema
            else Mapping.put schema "enum" (.array (items ++ [.null]))
      | none =>
          if (constraints schema).isEmpty then .ok schema
          else do
            if ← hasNullBranch (Mapping.get? schema "anyOf") then return schema
            return ("anyOf", .array [.object (constraints schema), .object onlyNull]) ::
              annotations schema

end Schema

end Mson
