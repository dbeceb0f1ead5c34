import Mson.Time.Moment

/-!
# Timestamps in YAML

A timestamp is a date, or a date and a time with an optional fraction and offset. Months and days
may have one digit; a plain scalar that is a date alone has two digits of each.
-/
namespace Mson.Yaml

structure Timestamp where
  date : Time.Date
  clock : Option Time.Clock
  offset : Option Time.Offset
  deriving DecidableEq, Repr

namespace Timestamp

/-- Reads one digit or two. -/
def readShort (text : List Char) : Option (Nat × List Char) :=
  match Time.readDigits? 2 0 text with
  | some found => some found
  | none => Time.readDigits? 1 0 text

def readChar (wanted : Char) : List Char → Option (List Char)
  | c :: rest => if c = wanted then some rest else none
  | [] => none

def isSpaceOrTab (c : Char) : Bool := c == ' ' || c == '\t'

/-- The fraction of a second, in microseconds; there may be none after its point. -/
def readFraction (text : List Char) : Nat × List Char :=
  match text with
  | '.' :: rest =>
      let digits := rest.takeWhile Char.isDigit
      (Time.microseconds digits, rest.drop digits.length)
  | rest => (0, rest)

def readOffset (text : List Char) : Option (Option Time.Offset) :=
  match text.dropWhile isSpaceOrTab with
  | [] => if text.isEmpty then some none else none
  | ['Z'] => some (some ⟨0⟩)
  | sign :: rest =>
      if sign = '+' ∨ sign = '-' then do
        let (hours, rest) ← readShort rest
        match rest with
        | [] => return some (.ofParts (sign = '-') hours 0 0 0)
        | ':' :: rest => do
            let (minutes, rest) ← Time.readDigits? 2 0 rest
            if rest.isEmpty then return some (.ofParts (sign = '-') hours minutes 0 0) else none
        | _ => none
      else none

/-- What separates a date from a time: a letter, or blanks. -/
def readGap (text : List Char) : Option (List Char) :=
  match text with
  | 'T' :: rest | 't' :: rest => some rest
  | c :: _ => if isSpaceOrTab c then some (text.dropWhile isSpaceOrTab) else none
  | [] => none

def readTime (date : Time.Date) (text : List Char) : Option Timestamp := do
  let (hour, rest) ← readShort (← readGap text)
  let (minute, rest) ← Time.readDigits? 2 0 (← readChar ':' rest)
  let (second, rest) ← Time.readDigits? 2 0 (← readChar ':' rest)
  let (fraction, rest) := readFraction rest
  return ⟨date, some ⟨hour, minute, second, fraction⟩, ← readOffset rest⟩

/-- Reads a timestamp, whether or not there is such a day and time. -/
def read? (text : List Char) : Option Timestamp := do
  let (year, rest) ← Time.readDigits? 4 0 text
  let (month, rest) ← readShort (← readChar '-' rest)
  let (day, rest) ← readShort (← readChar '-' rest)
  if rest.isEmpty then return ⟨⟨year, month, day⟩, none, none⟩
  else readTime ⟨year, month, day⟩ rest

/-- Whether a plain scalar is a timestamp. -/
def isPlain (text : List Char) : Bool :=
  match read? text with
  | some stamp => stamp.clock.isSome || text.length == 10
  | none => false

end Timestamp

end Mson.Yaml
