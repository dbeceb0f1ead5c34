import Mson.Element.Kind
import Mson.Json.Basic

/-!
# Elements

An element is one node of a data structure: a name, which is the name of a kind or of a named
type, its content, and two mappings of annotations. What the content is depends on the kind, but
an element may hold any content; the readers of elements (`children`, `memberKey` and so on) look
for the shape they need and answer with nothing where it is missing.
-/
namespace Mson

mutual

structure Element where
  name : String
  content : Content
  metadata : List (String × Json)
  attributes : List (String × Json)

inductive Content where
  | absent
  /-- The child elements of a collection. -/
  | children (items : List Element)
  | member (key : Element) (value : Option Element)
  /-- The value of a primitive, or the target of a reference. -/
  | literal (value : Json)

end

/-- The declared types by name. -/
abbrev SymbolTable := Mapping Element

/-- The name of the attribute that holds the flags of an element. -/
def flagsAttribute : String := "typeAttributes"

def requiredFlag : String := "required"

def nullableFlag : String := "nullable"

namespace Element

instance : Inhabited Element := ⟨⟨"", .absent, [], []⟩⟩

def kind (element : Element) : Option Kind := Kind.ofName? element.name

/-- The annotation shown with a rendered schema; a null description is none. -/
def description? (element : Element) : Option Json :=
  match Mapping.get? element.metadata "description" with
  | some .null => none
  | found => found

/-- Child elements; content that is not a collection has none. -/
def children (element : Element) : List Element :=
  match element.content with
  | .children items => items
  | _ => []

def memberValue? (element : Element) : Option Element :=
  match element.content with
  | .member _ value => value
  | _ => none

/-- The name of the type a reference includes. -/
def target? (element : Element) : Option String :=
  match element.content with
  | .literal (.string name) => some name
  | _ => none

/-- Whether the element is a member of an object. -/
def isMember (element : Element) : Bool := element.kind = some .member

def isReference (element : Element) : Bool := element.kind = some .reference

def isOptionSet (element : Element) : Bool := element.kind = some .optionSet

end Element

end Mson
