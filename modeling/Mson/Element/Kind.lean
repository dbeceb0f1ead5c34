/-!
# Element kinds

The element names that have a meaning of their own. Every other name refers to a named type.
-/
namespace Mson

inductive Kind where
  | boolean
  | string
  | number
  | enum
  | array
  | object
  /-- A group of options that exclude one another. -/
  | optionSet
  | option
  | member
  /-- A mixin: it stands for the members of the type it names. -/
  | reference
  deriving DecidableEq, Repr

namespace Kind

/-- The principal name of a kind. -/
def name : Kind → String
  | .boolean => "boolean"
  | .string => "string"
  | .number => "number"
  | .enum => "enum"
  | .array => "array"
  | .object => "object"
  | .optionSet => "select"
  | .option => "option"
  | .member => "member"
  | .reference => "ref"

def all : List Kind :=
  [.boolean, .string, .number, .enum, .array, .object, .optionSet, .option, .member, .reference]

/-- Further names of kinds. -/
def aliases : List (String × Kind) := [("option-set", .optionSet), ("reference", .reference)]

/-- The kind an element name stands for, or none for the name of a type. -/
def ofName? (text : String) : Option Kind :=
  match aliases.lookup text with
  | some kind => some kind
  | none => all.find? fun kind => kind.name = text

/-- Kinds whose values are single JSON scalars. -/
def isPrimitive : Kind → Bool
  | .boolean | .string | .number => true
  | _ => false

end Kind

end Mson
