import Mson.Json.Basic
import Mson.Number.Decimal

/-!
# Printing JSON text

A value is printed on one line or with one item per line. Only the characters that a JSON string
cannot hold are escaped. Doubles are printed by their shortest decimal; those that have no digits
are printed as the words the reader takes for them.
-/
namespace Mson.Json

/-- How items are set apart: all on one line, or each on its own, indented by `width` blanks for
every level of nesting. -/
inductive Layout where
  | oneLine
  | indented (width : Nat)
  deriving DecidableEq, Repr

/-- Doubles are positional from `10 ^ -4` and below `10 ^ 16`, keep a point, and have exponents of
two digits or more. -/
def doubleLayout : DecimalLayout where
  positionalStart := -4
  positionalEnd := 16
  keepsPoint := true
  exponentWidth := 2
  nan := "NaN"
  infinity := "Infinity"

def hexDigit (n : Nat) : Char :=
  if n < 10 then Char.ofNat ('0'.toNat + n) else Char.ofNat ('a'.toNat + n - 10)

/-- A code unit as four lower-case hexadecimal digits. -/
def hexUnit (n : Nat) : List Char :=
  [hexDigit (n / 4096 % 16), hexDigit (n / 256 % 16), hexDigit (n / 16 % 16), hexDigit (n % 16)]

def escapeChar (c : Char) : List Char :=
  if c = '\x22' then ['\\', '\x22']
  else if c = '\\' then ['\\', '\\']
  else if c = '\n' then ['\\', 'n']
  else if c = '\r' then ['\\', 'r']
  else if c = '\t' then ['\\', 't']
  else if c = '\x08' then ['\\', 'b']
  else if c = '\x0c' then ['\\', 'f']
  else if c.toNat < 0x20 then '\\' :: 'u' :: hexUnit c.toNat
  else [c]

def printString (text : String) : List Char :=
  '\x22' :: text.toList.flatMap escapeChar ++ ['\x22']

/-- What stands before an item of a container at the given depth. -/
def Layout.break (layout : Layout) (depth : Nat) : List Char :=
  match layout with
  | .oneLine => []
  | .indented width => '\n' :: List.replicate (width * depth) ' '

/-- What stands between two items. -/
def Layout.comma (layout : Layout) (depth : Nat) : List Char :=
  match layout with
  | .oneLine => [',', ' ']
  | .indented _ => ',' :: layout.break depth

mutual

/-- The text of a value that stands at the given depth. -/
def printAt (layout : Layout) (depth : Nat) : Json → List Char
  | .null => "null".toList
  | .bool true => "true".toList
  | .bool false => "false".toList
  | .int value => (toString value).toList
  | .double value => (value.toText doubleLayout).toList
  | .string text => printString text
  | .array [] => ['[', ']']
  | .array (item :: items) =>
      '[' :: layout.break (depth + 1) ++ printAt layout (depth + 1) item ++
        printItems layout (depth + 1) items ++ layout.break depth ++ [']']
  | .object [] => ['\x7b', '\x7d']
  | .object ((name, value) :: entries) =>
      '\x7b' :: layout.break (depth + 1) ++ printString name ++ [':', ' '] ++
        printAt layout (depth + 1) value ++ printEntries layout (depth + 1) entries ++
        layout.break depth ++ ['\x7d']

/-- The items after the first, each with the comma before it. -/
def printItems (layout : Layout) (depth : Nat) : List Json → List Char
  | [] => []
  | item :: items =>
      layout.comma depth ++ printAt layout depth item ++ printItems layout depth items

/-- The entries after the first, each with the comma before it. -/
def printEntries (layout : Layout) (depth : Nat) : List (String × Json) → List Char
  | [] => []
  | (name, value) :: entries =>
      layout.comma depth ++ printString name ++ [':', ' '] ++ printAt layout depth value ++
        printEntries layout depth entries

end

/-- The text of a value. -/
def print (layout : Layout) (value : Json) : String := String.ofList (printAt layout 0 value)

end Mson.Json
