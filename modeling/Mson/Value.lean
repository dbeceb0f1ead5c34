import Mson.Element.Basic

/-!
# Rendered values

What rendering puts together is JSON, except that the content of an element is taken as it is: the
choices of an enumeration and the examples of primitives may hold child elements or a member. Such
values have no JSON form, apart from the empty collection, which is the empty array.
-/
namespace Mson

inductive Value where
  | null
  | bool (value : Bool)
  | int (value : Int)
  | double (value : Double)
  | string (value : String)
  | array (items : List Value)
  | object (entries : List (String × Value))
  | collection (items : List Element)
  | member (key : Element) (value : Option Element)
  deriving Inhabited

namespace Value

mutual

def ofJson : Json → Value
  | .null => .null
  | .bool value => .bool value
  | .int value => .int value
  | .double value => .double value
  | .string value => .string value
  | .array items => .array (ofItems items)
  | .object entries => .object (ofEntries entries)

def ofItems : List Json → List Value
  | [] => []
  | item :: items => ofJson item :: ofItems items

def ofEntries : List (String × Json) → List (String × Value)
  | [] => []
  | (name, value) :: entries => (name, ofJson value) :: ofEntries entries

end

/-- The content of an element as a value; no content is null. -/
def ofContent : Content → Value
  | .absent => .null
  | .children items => .collection items
  | .member key value => .member key value
  | .literal value => ofJson value

mutual

/-- The JSON form of a value that holds no element. -/
def toJson? : Value → Option Json
  | .null => some .null
  | .bool value => some (.bool value)
  | .int value => some (.int value)
  | .double value => some (.double value)
  | .string value => some (.string value)
  | .array items => (toItems? items).map Json.array
  | .object entries => (toEntries? entries).map Json.object
  | .collection [] => some (.array [])
  | .collection (_ :: _) => none
  | .member _ _ => none

def toItems? : List Value → Option (List Json)
  | [] => some []
  | item :: items => do return (← toJson? item) :: (← toItems? items)

def toEntries? : List (String × Value) → Option (List (String × Json))
  | [] => some []
  | (name, value) :: entries => do return (name, ← toJson? value) :: (← toEntries? entries)

end

def isNull : Value → Bool
  | .null => true
  | _ => false

end Value

end Mson
