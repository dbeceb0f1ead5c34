import Mson.Number.Power
import Mson.Text.Printable

/-!
# Quoted texts

A text between quotes, with an escape for every character that would not show. Apostrophes are the
quotes unless the text holds an apostrophe and no double quote.
-/
namespace Mson.Text

def apostrophe : Char := '\x27'

def doubleQuote : Char := '\x22'

def quoteFor (text : List Char) : Char :=
  if text.contains apostrophe && !text.contains doubleQuote then doubleQuote else apostrophe

def lowerHexDigit (n : Nat) : Char :=
  if n < 10 then Char.ofNat ('0'.toNat + n) else Char.ofNat ('a'.toNat + n - 10)

/-- The last `width` hexadecimal digits of a number. -/
def lowerHex (width n : Nat) : List Char :=
  match width with
  | 0 => []
  | width + 1 => lowerHexDigit (n / powerOf 16 width % 16) :: lowerHex width n

/-- A character by its number, as short as its number allows. -/
def numericEscape (c : Char) : List Char :=
  if c.toNat ≤ 0xFF then '\\' :: 'x' :: lowerHex 2 c.toNat
  else if c.toNat ≤ 0xFFFF then '\\' :: 'u' :: lowerHex 4 c.toNat
  else '\\' :: 'U' :: lowerHex 8 c.toNat

def quoteChar (mark c : Char) : List Char :=
  if c = mark || c = '\\' then ['\\', c]
  else if c = '\t' then ['\\', 't']
  else if c = '\n' then ['\\', 'n']
  else if c = '\r' then ['\\', 'r']
  else if isPrintable c then [c]
  else numericEscape c

def quote (text : String) : List Char :=
  let mark := quoteFor text.toList
  mark :: text.toList.flatMap (quoteChar mark) ++ [mark]

end Mson.Text
