import Mson.Element.KeyText
import Mson.Text.Base64
import Mson.Text.LowerCase
import Mson.Text.Real
import Mson.Time.Moment
import Mson.Yaml.Node

/-!
# Values of scalars

What a scalar denotes under its tag. A number may be written in base sixty, its places separated by
colons; underscores in numbers do not count.
-/
namespace Mson.Yaml

inductive Atom where
  | null
  | bool (value : Bool)
  | int (value : Int)
  /-- A number other than NaN. -/
  | double (value : Double)
  /-- A NaN, and the node that it was computed for unless it is written as such. -/
  | nan (source : Option NodeId)
  | string (value : String)
  | binary (bytes : List UInt8)
  | date (value : Time.Date)
  | moment (value : Time.Moment)
  deriving DecidableEq, Repr

namespace Atom

/-! ## Reading -/

def readInteger (base : Nat) (text : List Char) : Except Fault Int :=
  let count := Text.leadingDigits base text
  if base = 10 ∧ Text.digitLimit < count then .error (.tooManyDigits count)
  else match Text.readInteger? base text with
    | none => .error (.notAnInteger base (String.ofList text))
    | some written => .ok (written.value base)

/-- The text without underscores. -/
def dropUnderscores (text : String) : List Char := text.toList.filter (· != '_')

/-- Whether a number is negative, and its text without the sign. -/
def splitSign (text : List Char) : Except Fault (Bool × List Char) :=
  match text with
  | [] => .error .emptyNumber
  | '-' :: rest => .ok (true, rest)
  | '+' :: rest => .ok (false, rest)
  | rest => .ok (false, rest)

def readMagnitude (text : List Char) : Except Fault Int :=
  match text with
  | [] => .error .emptyNumber
  | ['0'] => .ok 0
  | '0' :: 'b' :: digits => readInteger 2 digits
  | '0' :: 'x' :: digits => readInteger 16 digits
  | '0' :: _ => readInteger 8 text
  | _ =>
      if text.contains ':' then do
        let places ← (Tag.splitColons text).mapM (readInteger 10)
        return places.foldl (fun value place => 60 * value + place) 0
      else readInteger 10 text

def readInt (text : String) : Except Fault Int := do
  let (negative, body) ← splitSign (dropUnderscores text)
  let magnitude ← readMagnitude body
  return if negative then -magnitude else magnitude

def readReal (text : List Char) : Except Fault Double :=
  match Text.readDouble? text with
  | some value => .ok value
  | none => .error (.notAFloat (String.ofList text))

/-- The sum of the places of a number in base sixty, the last place first. -/
def sumPlaces (total : Double) (power : Nat) : List Double → Except Fault Double
  | [] => .ok total
  | place :: places =>
      if Double.ofDecimal false (powerOf 60 power) 0 = .infinity false then .error .placeTooHigh
      else sumPlaces (total.add (place.scaleBySixty power)) (power + 1) places

def readFloatMagnitude (text : List Char) : Except Fault Double :=
  if text = ".inf".toList then .ok (.infinity false)
  else if text.contains ':' then do
    let places ← (Tag.splitColons text).mapM readReal
    sumPlaces (.zero false) 0 places.reverse
  else readReal text

/-- The number that the text of a node denotes. -/
def readFloat (node : NodeId) (text : String) : Except Fault Atom := do
  let (negative, body) ← splitSign (Text.lowerChars (dropUnderscores text))
  if body = ".nan".toList then return .nan none
  match ← readFloatMagnitude body with
  | .nan => return .nan (some node)
  | magnitude => return .double (if negative then magnitude.negate else magnitude)

def readBool (text : String) : Except Fault Bool :=
  let word := Text.lower text
  match Tag.booleanWords.lookup word with
  | some value => .ok value
  | none => .error (.notABoolean word)

def readBinary (text : String) : Except Fault (List UInt8) :=
  let chars := text.toList
  if chars.all fun c => c.toNat < 0x80 then
    match Text.Base64.decode? chars with
    | some bytes => .ok bytes
    | none => .error .undecodableBinary
  else .error .undecodableBinary

/-- Reads a timestamp of a day and time that exist. -/
def readTimestamp (text : String) : Except Fault Atom := do
  let stamp ← match Timestamp.read? (Tag.dropLineEnd text.toList) with
    | some stamp => pure stamp
    | none => throw .notATimestamp
  let moment : Time.Moment := ⟨stamp.date, stamp.clock.getD ⟨0, 0, 0, 0⟩, stamp.offset⟩
  if let some fault := moment.fault? then throw (.impossibleTime fault)
  return if stamp.clock.isSome then .moment moment else .date stamp.date

/-! ## Keys -/

/-- The number that a value is as a key: truth values are one and zero. -/
def integer? : Atom → Option Int
  | .bool value => some (if value then 1 else 0)
  | .int value => some value
  | _ => none

/-- Whether two values are the same key. Numbers are the same if they are equal, whatever their
kind; a NaN is the same only as one of the same source. -/
def sameKey (left right : Atom) : Bool :=
  match left, right with
  | .double a, .double b => a.valueEq b
  | .double a, b | b, .double a => b.integer?.any a.eqInt
  | .moment a, .moment b => a.same b
  | left, right =>
      match left.integer?, right.integer? with
      | some a, some b => a == b
      | _, _ => left = right

/-- A byte as it is shown between quotes. -/
def quoteByte (mark : Char) (byte : UInt8) : List Char :=
  let c := Char.ofNat byte.toNat
  if 0x7F ≤ byte.toNat then Text.numericEscape c else Text.quoteChar mark c

def binaryText (bytes : List UInt8) : List Char :=
  let mark := Text.quoteFor (bytes.map fun byte => Char.ofNat byte.toNat)
  'b' :: mark :: bytes.flatMap (quoteByte mark) ++ [mark]

/-- The text of a value as the name of a section. -/
def text : Atom → String
  | .null => "None"
  | .bool true => "True"
  | .bool false => "False"
  | .int value => toString value
  | .double value => value.toText Element.writtenDouble
  | .nan _ => Double.nan.toText Element.writtenDouble
  | .string value => value
  | .binary bytes => String.ofList (binaryText bytes)
  | .date value => value.toIso
  | .moment value => value.written " "

end Atom

end Mson.Yaml
