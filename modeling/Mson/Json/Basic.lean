import Mson.Mapping
import Mson.Number.Double

/-!
# JSON values

A JSON value keeps what its text can tell apart and later output shows: integers of any size apart
from binary64 numbers, and the order of the entries of an object. Texts with a name twice never
become such an object (`Json.Reader`), so entries read as a `Mapping`.
-/
namespace Mson

inductive Json where
  | null
  | bool (value : Bool)
  | int (value : Int)
  | double (value : Double)
  | string (value : String)
  | array (items : List Json)
  | object (entries : List (String × Json))
  deriving Repr, Inhabited

namespace Json

/-- The entries of an object. -/
def entries? : Json → Option (Mapping Json)
  | .object entries => some entries
  | _ => none

/-- The value of an object under a name; other values have none. -/
def field? (value : Json) (name : String) : Option Json :=
  value.entries?.bind fun entries => Mapping.get? entries name

/-- What a JSON value is, leaving aside which. -/
inductive Shape where
  | null
  | bool
  | int
  | double
  | string
  | array
  | object
  deriving DecidableEq, Repr

def shape : Json → Shape
  | .null => .null
  | .bool _ => .bool
  | .int _ => .int
  | .double _ => .double
  | .string _ => .string
  | .array _ => .array
  | .object _ => .object

def isNull : Json → Bool
  | .null => true
  | _ => false

/-- Null, false, zero, and whatever has no characters or items. -/
def isEmptyValue : Json → Bool
  | .null => true
  | .bool value => !value
  | .int value => value == 0
  | .double (.finite _ significand _) => significand == 0
  | .double _ => false
  | .string text => text == ""
  | .array items => items.isEmpty
  | .object entries => entries.isEmpty

def string? : Json → Option String
  | .string text => some text
  | _ => none

end Json

end Mson
