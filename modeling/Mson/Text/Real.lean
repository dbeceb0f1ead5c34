import Mson.Number.Double
import Mson.Text.Integer

/-!
# Written real numbers

A real number may stand between blanks and have a sign. It has digits of any script, of which some
may follow a point, and may have an exponent; or it is one of the words for infinity and for no
number.
-/
namespace Mson.Text

/-- The value of a run of decimal digits of any script, their count, and what follows. -/
def readDigitRun : List Char → Nat → Nat → Nat × Nat × List Char
  | [], value, count => (value, count, [])
  | c :: rest, value, count =>
      match decimalDigit? c with
      | some digit => readDigitRun rest (10 * value + digit) (count + 1)
      | none => (value, count, c :: rest)

/-- The exponent at the end of a number; an empty text is the exponent zero. -/
def readExponent? (text : List Char) : Option Int :=
  match text with
  | [] => some 0
  | mark :: rest =>
      if mark = 'e' ∨ mark = 'E' then
        let (negative, digits) := match rest with
          | '-' :: digits => (true, digits)
          | '+' :: digits => (false, digits)
          | digits => (false, digits)
        match readDigitRun digits 0 0 with
        | (_, 0, _) => none
        | (value, _, []) => some (if negative then -(value : Int) else value)
        | _ => none
      else none

/-- A number without sign, at least one digit of it before its exponent. -/
def readMagnitude? (negative : Bool) (text : List Char) : Option Double := do
  let (whole, wholeCount, rest) := readDigitRun text 0 0
  let (digits, places, rest) := match rest with
    | '.' :: rest => readDigitRun rest whole 0
    | rest => (whole, 0, rest)
  guard (0 < wholeCount + places)
  let exponent ← readExponent? rest
  return .ofDecimal negative digits (exponent - places)

/-- The double nearest to a written number. -/
def readDouble? (text : List Char) : Option Double :=
  let (negative, body) := match trimOuter text with
    | '-' :: body => (true, body)
    | '+' :: body => (false, body)
    | body => (false, body)
  let word := String.ofList (body.map Char.toLower)
  if word = "inf" ∨ word = "infinity" then some (.infinity negative)
  else if word = "nan" then some .nan
  else readMagnitude? negative body

end Mson.Text
