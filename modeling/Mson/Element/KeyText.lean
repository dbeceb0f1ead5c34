import Mson.Element.Basic
import Mson.Number.Decimal
import Mson.Text.Quoted

/-!
# The text of a member's key

A member names a property by the content of its key element. A string is the name as it is; any
other content is named by its written form, in which strings are quoted, the constants are `True`,
`False` and `None`, and elements show their four parts.
-/
namespace Mson.Element

/-- Doubles in written forms; those without digits are named in lower case. -/
def writtenDouble : DecimalLayout where
  positionalStart := -4
  positionalEnd := 16
  keepsPoint := true
  exponentWidth := 2
  nan := "nan"
  infinity := "inf"

/-- Texts with a comma and a blank between them. -/
def commaSeparated : List (List Char) → List Char
  | [] => []
  | [text] => text
  | text :: rest => text ++ ',' :: ' ' :: commaSeparated rest

mutual

/-- The written form of a value. -/
def writtenJson : Json → List Char
  | .null => "None".toList
  | .bool true => "True".toList
  | .bool false => "False".toList
  | .int value => (toString value).toList
  | .double value => (value.toText writtenDouble).toList
  | .string text => Text.quote text
  | .array items => '[' :: commaSeparated (writtenItems items) ++ [']']
  | .object entries => '\x7b' :: commaSeparated (writtenEntries entries) ++ ['\x7d']

def writtenItems : List Json → List (List Char)
  | [] => []
  | item :: items => writtenJson item :: writtenItems items

def writtenEntries : List (String × Json) → List (List Char)
  | [] => []
  | (name, value) :: entries =>
      (Text.quote name ++ ':' :: ' ' :: writtenJson value) :: writtenEntries entries

end

/-- A fixed sequence: one item is followed by a comma. -/
def writtenSequence (items : List (List Char)) : List Char :=
  match items with
  | [item] => '(' :: item ++ [',', ')']
  | items => '(' :: commaSeparated items ++ [')']

/-- The written form of attributes: the flags are a fixed sequence. -/
def writtenAttributes (attributes : Mapping Json) : List Char :=
  let entries := attributes.map fun (name, value) =>
    let text := match value with
      | .array flags =>
          if name = flagsAttribute then writtenSequence (writtenItems flags) else writtenJson value
      | _ => writtenJson value
    Text.quote name ++ ':' :: ' ' :: text
  '\x7b' :: commaSeparated entries ++ ['\x7d']

mutual

/-- The written form of an element. -/
def written : Element → List Char
  | ⟨name, content, metadata, attributes⟩ =>
      "Element(element=".toList ++ Text.quote name ++ ", content=".toList ++
        writtenContent content ++ ", meta=".toList ++ writtenJson (.object metadata) ++
        ", attributes=".toList ++ writtenAttributes attributes ++ [')']

def writtenContent : Content → List Char
  | .absent => "None".toList
  | .children items => writtenSequence (writtenElements items)
  | .member key none =>
      "MemberContent(key=".toList ++ written key ++ ", value=None)".toList
  | .member key (some value) =>
      "MemberContent(key=".toList ++ written key ++ ", value=".toList ++ written value ++ [')']
  | .literal value => writtenJson value

def writtenElements : List Element → List (List Char)
  | [] => []
  | item :: items => written item :: writtenElements items

end

/-- The text of a content as a property name. -/
def nameText? : Content → Option String
  | .absent => none
  | .literal .null => none
  | .literal (.string text) => some text
  | content => some (String.ofList (writtenContent content))

/-- The property name of a member; elements that are no member, and members whose key is empty, have
none. -/
def memberKey? (element : Element) : Option String :=
  match element.content with
  | .member key _ => nameText? key.content
  | _ => none

end Mson.Element
