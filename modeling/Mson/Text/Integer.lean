import Mson.Text.Blank
import Mson.Text.DecimalDigit

/-!
# Written integers

An integer may stand between blanks and have a sign. Its digits, of any script, may be set apart by
single underscores. In a base other than ten the letters that name the base may come first.
-/
namespace Mson.Text

/-- Integers of more decimal digits than this are refused. -/
def digitLimit : Nat := 4300

/-- White space of ASCII, and the blanks beyond it. -/
def isOuterBlank (c : Char) : Bool :=
  if c.toNat < 0x7F then c == ' ' || (0x09 ≤ c.toNat && c.toNat ≤ 0x0D) else isBlank c

def trimOuter (text : List Char) : List Char :=
  ((text.dropWhile isOuterBlank).reverse.dropWhile isOuterBlank).reverse

/-- The value of a letter or digit. -/
def digitIn? (base : Nat) (c : Char) : Option Nat :=
  let value :=
    if 'a' ≤ c && c ≤ 'z' then some (c.toNat - 'a'.toNat + 10)
    else if 'A' ≤ c && c ≤ 'Z' then some (c.toNat - 'A'.toNat + 10)
    else decimalDigit? c
  value.bind fun digit => if digit < base then some digit else none

/-- The digits of a number, of which two may have one underscore between them. -/
def readDigits (base : Nat) : List Char → Option (List Nat)
  | [] => none
  | [c] => (digitIn? base c).map fun digit => [digit]
  | c :: '_' :: rest => do return (← digitIn? base c) :: (← readDigits base rest)
  | c :: rest => do return (← digitIn? base c) :: (← readDigits base rest)

/-- The letter that names a base. -/
def baseLetter? (base : Nat) : Option Char := [(2, 'b'), (8, 'o'), (16, 'x')].lookup base

/-- The text without the letters that name the base. -/
def dropBase (base : Nat) (text : List Char) : List Char :=
  match text with
  | '0' :: letter :: rest =>
      if (baseLetter? base).any fun wanted => wanted == letter || wanted.toUpper == letter then
        match rest with
        | '_' :: rest => rest
        | rest => rest
      else text
  | text => text

/-- A text between blanks without its sign, and whether the sign is a minus. -/
def splitSign (text : List Char) : Bool × List Char :=
  match trimOuter text with
  | '-' :: body => (true, body)
  | '+' :: body => (false, body)
  | body => (false, body)

/-- How many digits a text begins with, after blanks and a sign. -/
def leadingDigits (base : Nat) (text : List Char) : Nat :=
  ((splitSign text).2.takeWhile fun c => (digitIn? base c).isSome).length

/-- A sign and the digits after it. -/
structure WrittenInteger where
  negative : Bool
  digits : List Nat

def readInteger? (base : Nat) (text : List Char) : Option WrittenInteger :=
  let (negative, body) := splitSign text
  (readDigits base (dropBase base body)).map fun digits => ⟨negative, digits⟩

def WrittenInteger.value (base : Nat) (written : WrittenInteger) : Int :=
  let magnitude : Nat := written.digits.foldl (fun value digit => base * value + digit) 0
  if written.negative then -magnitude else magnitude

end Mson.Text
