import Mson.Json.Basic

/-!
# Unwrapping

Annotations may be given plainly or wrapped as an element of their own, as in
`{"element": "string", "content": "x"}`. Unwrapping puts the content of every such wrapper in its
place, at every depth.
-/
namespace Mson.Refract

/-- The names an element has in its JSON form. -/
def elementFields : List String := ["element", "content", "meta", "attributes"]

/-- Whether an object with these entries is a wrapped value: it has an element name, and nothing
that an element has not. -/
def isWrapper (entries : Mapping Json) : Bool :=
  Mapping.has entries "element" && (Mapping.names entries).all (elementFields.contains ·)

mutual

/-- The value without wrappers; a wrapper without content is null. -/
def unwrap : Json → Json
  | .object entries =>
      if isWrapper entries then unwrapContent entries else .object (unwrapEntries entries)
  | .array items => .array (unwrapItems items)
  | value => value

def unwrapItems : List Json → List Json
  | [] => []
  | item :: items => unwrap item :: unwrapItems items

def unwrapEntries : List (String × Json) → List (String × Json)
  | [] => []
  | (name, value) :: entries => (name, unwrap value) :: unwrapEntries entries

def unwrapContent : List (String × Json) → Json
  | [] => .null
  | (name, value) :: entries => if name = "content" then unwrap value else unwrapContent entries

end

end Mson.Refract
