import Mson.Element.Basic

/-!
# Flags of an element

The flags attribute is a list of flags. Where it was not brought into that form, an empty value
gives no flags, a string is one flag and an object gives its names; any other value cannot be
read as flags.
-/
namespace Mson

/-- The flags attribute holds a value that has no items. -/
structure UnreadableFlags where
  found : Json.Shape
  deriving DecidableEq, Repr

/-- The flags that a value holds. -/
def readFlags (value : Json) : Except UnreadableFlags (List Json) :=
  if value.isEmptyValue then .ok []
  else match value with
    | .string flag => .ok [.string flag]
    | .array flags => .ok flags
    | .object entries => .ok ((Mapping.names entries).map Json.string)
    | other => .error ⟨other.shape⟩

namespace Element

def flags (element : Element) : Except UnreadableFlags (List Json) :=
  match Mapping.get? element.attributes flagsAttribute with
  | none => .ok []
  | some value => readFlags value

def hasFlag (element : Element) (flag : String) : Except UnreadableFlags Bool := do
  let flags ← element.flags
  return flags.any fun found => found.string? = some flag

end Element

end Mson
