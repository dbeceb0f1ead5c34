import Mson.Element.Flags
import Mson.Inheritance
import Mson.Mixin
import Mson.Schema.Equality
import Mson.Schema.Widening

/-!
# Rendering schemas

The JSON Schema of an element: simple types, choices, arrays, and objects with required, nullable
and described properties and with groups of properties that exclude one another. A named type is
rendered as its declaration with the element laid over it.

A type that reaches itself has no finite schema, so rendering is given the depth to which elements
may nest; `renderSchemaWithin` answers the same at every depth at which it answers at all.
-/
namespace Mson

inductive RenderFault where
  /-- Elements nest deeper than allowed. -/
  | depthExceeded
  /-- Mixins take more steps to expand than allowed. -/
  | expansionExceeded
  | unreadableFlags (fault : UnreadableFlags)
  | widening (fault : WideningFault)
  deriving DecidableEq, Repr

/-- Elements may nest this deep. -/
def renderDepth : Nat := 1000

namespace Schema

def widenOrFail (schema : Schema) : Except RenderFault Schema :=
  (widen schema).mapError .widening

def flagged (element : Element) (flag : String) : Except RenderFault Bool :=
  (element.hasFlag flag).mapError .unreadableFlags

/-- Puts the element's description into its schema. -/
def describe (element : Element) (schema : Schema) : Schema :=
  match element.description? with
  | some text => Mapping.put schema descriptionKeyword (.ofJson text)
  | none => schema

def widenIfNullable (element : Element) (schema : Schema) : Except RenderFault Schema := do
  if ← flagged element nullableFlag then widenOrFail schema else return schema

/-- The schema of a boolean, string or number. -/
def ofPrimitive (element : Element) : Schema :=
  ("type", .string element.name) ::
    match Mapping.get? element.attributes "default" with
    | none | some .null => []
    | some value => [("default", .ofJson value)]

/-- The schema of a value that is one of the contents of the children. -/
def ofChoices (choices : List Element) : Schema :=
  [("enum", .array (choices.map fun choice => .ofContent choice.content))]

/-- One schema for all items, if all have the same; else any of theirs. -/
def itemSchema : List Schema → Schema
  | [] => []
  | [item] => [("items", .object item)]
  | first :: rest =>
      let all := (first :: rest).map Value.object
      if Value.allEqual all then [("items", .object first)]
      else [("items", .object [("anyOf", .array all)])]

def ofArray (render : Element → Except RenderFault Schema) (items : List Element) :
    Except RenderFault Schema := do
  let items ← items.mapM render
  return ("type", .string "array") :: itemSchema items

/-- What the members of an object have contributed so far: its properties, the groups of names of
which one must be missing, and the required names. -/
structure ObjectParts where
  properties : Mapping Value
  exclusive : List (List String)
  required : List String

def addName (names : List String) (name : String) : List String :=
  if names.contains name then names else names ++ [name]

/-- The properties among the keywords of an object schema. -/
def propertiesOf (schema : Schema) : Mapping Value :=
  match Mapping.get? schema "properties" with
  | some (.object entries) => entries
  | _ => []

/-- Adds the properties of an option to those of the object and to the names of its group. -/
def addOption (render : Element → Except RenderFault Schema)
    (found : Mapping Value × List String) (option : Element) :
    Except RenderFault (Mapping Value × List String) := do
  let schema ← render option
  let added := propertiesOf schema
  return (Mapping.overwrite found.1 added, (Mapping.names added).foldl addName found.2)

/-- The schema of a member's value with the member's own description and flags. -/
def propertySchema (render : Element → Except RenderFault Schema) (member : Element) :
    Except RenderFault Schema := do
  let schema ← match member.memberValue? with
    | some value => render value
    | none => pure []
  return describe member schema

def addMember (render : Element → Except RenderFault Schema) (parts : ObjectParts)
    (member : Element) : Except RenderFault ObjectParts := do
  if member.isOptionSet then
    let (properties, names) ← member.children.foldlM (addOption render) (parts.properties, [])
    return { parts with properties, exclusive := parts.exclusive ++ [names] }
  else match member.slot? with
    | none => return parts
    | some key =>
        let schema ← propertySchema render member
        let required ← flagged member requiredFlag
        let schema ← widenIfNullable member schema
        return { parts with
          properties := Mapping.put parts.properties key (.object schema)
          required := if required then addName parts.required key else parts.required }

/-- The clause that not all of the given names are there. -/
def exclusionClause (names : List String) : Value :=
  .object [("not", .object [("required", .array (names.map Value.string))])]

def ObjectParts.toSchema (parts : ObjectParts) : Schema :=
  [("type", .string "object"), ("properties", .object parts.properties)] ++
    (if parts.exclusive.isEmpty then []
      else [("allOf", .array (parts.exclusive.map exclusionClause))]) ++
    (if parts.required.isEmpty then []
      else [("required", .array (parts.required.map Value.string))])

/-- The schema of an object with the given members, whose mixins are expanded first. -/
def ofMembers (steps : Nat) (types : SymbolTable) (render : Element → Except RenderFault Schema)
    (members : List Element) : Except RenderFault Schema :=
  match expandWithin types steps members with
  | none => .error .expansionExceeded
  | some members => do
      let parts ← members.foldlM (addMember render) ⟨[], [], []⟩
      return parts.toSchema

end Schema

/-- The schema of an element, if elements nest no deeper than `depth` and no expansion of mixins
takes more than `steps`. -/
def renderSchemaWithin (steps : Nat) (types : SymbolTable) :
    Nat → Element → Except RenderFault Schema
  | 0, _ => .error .depthExceeded
  | depth + 1, element => do
      let render := renderSchemaWithin steps types depth
      let schema ← match element.kind with
        | some .boolean | some .string | some .number => pure (Schema.ofPrimitive element)
        | some .enum => pure (Schema.ofChoices element.children)
        | some .array => Schema.ofArray render element.children
        | some .object | some .option => Schema.ofMembers steps types render element.children
        | some .optionSet => Schema.ofMembers steps types render [element]
        | some .reference =>
            match element.target?.bind (Mapping.get? types) with
            | some target => render target
            | none => pure []
        | some .member => pure []
        | none =>
            match Mapping.get? types element.name with
            | some base => render (resolveInheritance base element)
            | none => pure []
      Schema.widenIfNullable element (Schema.describe element schema)

/-- The schema of an element. -/
def renderSchema (types : SymbolTable) (element : Element) : Except RenderFault Schema :=
  renderSchemaWithin expansionSteps types renderDepth element

end Mson
