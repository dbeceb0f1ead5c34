import Mson.Element.KeyText
import Mson.Refract.Unwrap

/-!
# Elements from their JSON form

`parse` builds the element that a refract node stands for, with its whole subtree. A node is an
object with a non-empty string under `element`; its annotations are unwrapped and the flags among
them become a list of strings. What content is accepted depends on the kind that the name stands
for.
-/
namespace Mson.Refract

inductive FormatError where
  | notAnObject (found : Json.Shape)
  | nameMissing
  | metadataNotAnObject
  | attributesNotAnObject
  | flagsNotAList
  | memberNotAnObject
  | memberKeyMissing
  | referenceTargetMissing
  deriving DecidableEq, Repr

/-- The word for a shape in messages. -/
def shapeWord : Json.Shape → String
  | .null => "NoneType"
  | .bool => "bool"
  | .int => "int"
  | .double => "float"
  | .string => "str"
  | .array => "list"
  | .object => "dict"

def FormatError.message : FormatError → String
  | .notAnObject found => "Refract elements must be objects, got " ++ shapeWord found ++ "."
  | .nameMissing => "Refract element is missing its 'element' name."
  | .metadataNotAnObject => "Refract meta must be an object."
  | .attributesNotAnObject => "Refract attributes must be an object."
  | .flagsNotAList => "typeAttributes must be a list of flags."
  | .memberNotAnObject => "Member content must be an object with key and value."
  | .memberKeyMissing => "Member content requires a key element."
  | .referenceTargetMissing => "Reference content requires an href target."

/-- The annotations under a name: none are as good as null. -/
def annotations (otherwise : FormatError) : Option Json → Except FormatError (Mapping Json)
  | none => .ok []
  | some .null => .ok []
  | some (.object entries) => .ok (unwrapEntries entries)
  | some _ => .error otherwise

/-- A string is one flag; a list has a flag for each item that is not null. -/
def flagList : Json → Except FormatError (List Json)
  | .string flag => .ok [.string flag]
  | .array items =>
      .ok (items.filterMap fun item => (Element.nameText? (.literal item)).map Json.string)
  | _ => .error .flagsNotAList

def normalizeFlags (attributes : Mapping Json) : Except FormatError (Mapping Json) :=
  match Mapping.get? attributes flagsAttribute with
  | none => .ok attributes
  | some value => do
      let flags ← flagList value
      return Mapping.put attributes flagsAttribute (.array flags)

/-- The name and the annotations of a node. -/
structure Header where
  name : String
  metadata : Mapping Json
  attributes : Mapping Json

def header (entries : Mapping Json) : Except FormatError Header := do
  let name ← match Mapping.get? entries "element" with
    | some (.string name) => if name = "" then throw .nameMissing else pure name
    | _ => throw .nameMissing
  let metadata ← annotations .metadataNotAnObject (Mapping.get? entries "meta")
  let attributes ← annotations .attributesNotAnObject (Mapping.get? entries "attributes")
  return ⟨name, metadata, ← normalizeFlags attributes⟩

/-- Puts the element of a node together; the header is checked before the content. -/
def assemble (entries : Mapping Json) (content : Option Kind → Except FormatError Content) :
    Except FormatError Element := do
  let header ← header entries
  let content ← content (Kind.ofName? header.name)
  return ⟨header.name, content, header.metadata, header.attributes⟩

/-- The target of a reference: its name, or an object with the name under `href`. -/
def referenceTarget : Json → Except FormatError String
  | .string name => .ok name
  | .object entries =>
      match Mapping.get? entries "href" with
      | some (.string name) => .ok name
      | _ => .error .referenceTargetMissing
  | _ => .error .referenceTargetMissing

mutual

/-- The element that a refract node stands for. -/
def parse : Json → Except FormatError Element
  | .object entries => assemble entries fun kind => parseContentField kind entries
  | value => .error (.notAnObject value.shape)

def parseItems : List Json → Except FormatError (List Element)
  | [] => .ok []
  | item :: items => do
      let first ← parse item
      let rest ← parseItems items
      return first :: rest

/-- The content of an element of the given kind. An element given without a list is its only
child. -/
def parseContent (kind : Option Kind) : Json → Except FormatError Content
  | .null => .ok .absent
  | .object entries =>
      if kind = some .member then do
        match ← parseElementField "key" entries with
        | none => throw .memberKeyMissing
        | some key => return .member key (← parseElementField "value" entries)
      else if kind = some .reference then do
        return .literal (.string (← referenceTarget (.object entries)))
      else if Mapping.has entries "element" then do
        return .children [← assemble entries fun kind => parseContentField kind entries]
      else .ok (.literal (.object entries))
  | .array items =>
      if kind = some .member then .error .memberNotAnObject
      else if kind = some .reference then .error .referenceTargetMissing
      else do return .children (← parseItems items)
  | value =>
      if kind = some .member then .error .memberNotAnObject
      else if kind = some .reference then do
        return .literal (.string (← referenceTarget value))
      else .ok (.literal value)

/-- The content among the entries of a node. -/
def parseContentField (kind : Option Kind) : List (String × Json) → Except FormatError Content
  | [] => .ok .absent
  | (name, value) :: entries =>
      if name = "content" then parseContent kind value else parseContentField kind entries

/-- The element under a name, unless it is missing or null. -/
def parseElementField (wanted : String) :
    List (String × Json) → Except FormatError (Option Element)
  | [] => .ok none
  | (name, value) :: entries =>
      if name = wanted then
        if value.isNull then .ok none else do return some (← parse value)
      else parseElementField wanted entries

end

end Mson.Refract
