import Mson.Number.Power

/-!
# Digits in times

The numbers that dates and times are written with have a fixed count of digits; a fraction of a
second has any count, of which six say how many microseconds it is.
-/
namespace Mson.Time

def digitValue? (c : Char) : Option Nat :=
  if '0' ≤ c && c ≤ '9' then some (c.toNat - '0'.toNat) else none

/-- Reads exactly `count` digits. -/
def readDigits? (count value : Nat) (text : List Char) : Option (Nat × List Char) :=
  match count with
  | 0 => some (value, text)
  | count + 1 =>
      match text with
      | [] => none
      | c :: rest => do readDigits? count (10 * value + (← digitValue? c)) rest

/-- The first six digits of a fraction, as a number of millionths. -/
def microseconds (digits : List Char) : Nat :=
  let value := (digits.take 6).foldl (fun value c => 10 * value + (digitValue? c).getD 0) 0
  value * powerOf 10 (6 - digits.length)

def padded (width n : Nat) : String :=
  let digits := toString n
  String.ofList (List.replicate (width - digits.length) '0') ++ digits

end Mson.Time
