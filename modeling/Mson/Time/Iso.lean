import Mson.Text.Quoted
import Mson.Time.Moment

/-!
# ISO 8601 texts

A moment is read from a date, alone or with a time after any one character. A date is a day of a
month or a day of a week, with or without hyphens; a day of a week may be left out and is then
Monday. A time has hours, and may have minutes, seconds and a fraction of a second, of which six
digits count; an offset from universal time, or `Z`, may follow. `Moment.ofIso` says that a text is
malformed, or which part of its moment does not exist.
-/
namespace Mson.Time

inductive IsoFault where
  | malformed (text : String)
  | impossible (fault : CalendarFault)
  deriving DecidableEq, Repr

def IsoFault.message : IsoFault → String
  | .malformed text => "Invalid isoformat string: " ++ String.ofList (Text.quote text)
  | .impossible fault => fault.message

/-! ## Dates -/

/-- The first day of the week that holds the first Thursday of a year. -/
def firstMonday (year : Nat) : Nat :=
  let first := daysBeforeYear year
  let weekday := first % 7
  first - weekday + (if 3 < weekday then 7 else 0)

/-- A year has a week 53 if it has 53 Thursdays. -/
def hasLongWeekYear (year : Nat) : Bool :=
  let weekday := daysBeforeYear year % 7
  weekday == 3 || weekday == 2 && isLeapYear year

/-- The day of a week, in a year that begins with its first Monday. The weeks of year zero are
before the first month there is. -/
def Date.ofWeek? (year week day : Nat) : Option Date :=
  if week < 1 ∨ 53 < week ∨ week = 53 ∧ (year = 0 ∨ !hasLongWeekYear year) then none
  else if day < 1 ∨ 7 < day then none
  else if year = 0 then some ⟨1, 0, 0⟩
  else some (.ofDayNumber (firstMonday year + (week - 1) * 7 + (day - 1)))

def isDigit (c : Char) : Bool := (digitValue? c).isSome

/-- How many characters of a text are its date. A hyphen after a week is taken for the separator
before a time if a digit is the next but one; without hyphens, the digits after a week are a day and
hours if their count is odd. -/
def dateLength (text : List Char) : Nat :=
  if text.length = 7 then 7
  else if text[4]? = some '-' then
    if text[5]? = some 'W' then
      if text[8]? = some '-' && !(text[10]?.any isDigit) then 10 else 8
    else 10
  else if text[4]? = some 'W' then
    let digits := ((text.drop 7).takeWhile isDigit).length
    if digits < 2 then 7 + digits else if digits % 2 = 1 then 7 else 8
  else 8

/-- Passes over a hyphen where hyphens are used. -/
def readHyphen (hyphens : Bool) (text : List Char) : Option (List Char) :=
  match hyphens, text with
  | true, '-' :: rest => some rest
  | true, _ => none
  | false, _ => some text

/-- Reads what follows a year and tells whether hyphens are used. The date may not exist. -/
def readDayOfYear (year : Nat) (hyphens : Bool) (text : List Char) : Option Date :=
  match text with
  | 'W' :: rest => do
      let (week, rest) ← readDigits? 2 0 rest
      if rest.isEmpty then Date.ofWeek? year week 1
      else
        let (day, _) ← readDigits? 1 0 (← readHyphen hyphens rest)
        Date.ofWeek? year week day
  | _ => do
      let (month, rest) ← readDigits? 2 0 text
      let (day, rest) ← readDigits? 2 0 (← readHyphen hyphens rest)
      guard rest.isEmpty
      return ⟨year, month, day⟩

def readDate (text : List Char) : Option Date := do
  let (year, rest) ← readDigits? 4 0 text
  match rest with
  | '-' :: rest => readDayOfYear year true rest
  | rest => readDayOfYear year false rest

/-! ## Times -/

/-- Whether a text ends here. A null character ends a text. -/
def isEnd (text : List Char) : Bool := text.headD '\x00' == '\x00'

/-- Reads a fraction of a second and tells whether the text ends after it. -/
def readFraction (text : List Char) : Option (Nat × Bool) :=
  let digits := text.take 6
  if digits.all isDigit then some (microseconds digits, isEnd ((text.drop 6).dropWhile isDigit))
  else none

/-- Reads up to `count` further pairs of digits and then a fraction, and tells whether the text ends
after them. Colons divide the pairs if a colon follows the first. One ASCII character behind a pair
is the end of what is read. -/
def readPairs (count : Nat) (colons : Bool) (pairs : List Nat) (text : List Char) :
    Option (List Nat × Nat × Bool) :=
  match count with
  | 0 => (readFraction text).map fun (fraction, ended) => (pairs.reverse, fraction, ended)
  | count + 1 => do
      let (pair, rest) ← readDigits? 2 0 text
      let pairs := pair :: pairs
      match rest with
      | [] => return (pairs.reverse, 0, true)
      | c :: next =>
          let colons := if pairs.length = 1 then c == ':' else colons
          if next.isEmpty ∧ c.toNat < 0x80 then return (pairs.reverse, 0, isEnd rest)
          else if colons && c == ':' then readPairs count colons pairs next
          else if c = '.' ∨ c = ',' then
            (readFraction next).map fun (fraction, ended) => (pairs.reverse, fraction, ended)
          else if colons then none
          else readPairs count colons pairs rest

/-- Reads hours, minutes, seconds and a fraction, and tells whether the text ends after them. The
time may not exist. -/
def readClock (text : List Char) : Option (Clock × Bool) := do
  let (pairs, fraction, ended) ← readPairs 3 false [] text
  return (⟨pairs[0]?.getD 0, pairs[1]?.getD 0, pairs[2]?.getD 0, fraction⟩, ended)

/-- Whether the offset of a time begins here. -/
def opensOffset (c : Char) : Bool := c == '+' || c == '-' || c == 'Z'

/-- Reads an offset behind its sign. One of less than a second is none. -/
def readOffset (negative : Bool) (text : List Char) : Option Offset := do
  let (clock, ended) ← readClock text
  guard ended
  if clock.hour = 0 ∧ clock.minute = 0 ∧ clock.second = 0 then return ⟨0⟩
  else return .ofParts negative clock.hour clock.minute clock.second clock.microsecond

/-- Reads a time and its offset. What stands between a time and its offset is passed over. -/
def readTime (text : List Char) : Option (Clock × Option Offset) := do
  let (clock, ended) ← readClock (text.takeWhile fun c => !opensOffset c)
  match text.dropWhile fun c => !opensOffset c with
  | [] => if ended then return (clock, none) else none
  | 'Z' :: rest => if isEnd rest then return (clock, some ⟨0⟩) else none
  | sign :: rest => return (clock, some (← readOffset (sign == '-') rest))

def Moment.read? (text : List Char) : Option Moment := do
  let length := dateLength text
  let date ← readDate (text.take length)
  match text.drop length with
  | [] => return ⟨date, ⟨0, 0, 0, 0⟩, none⟩
  | _ :: time =>
      let (clock, offset) ← readTime time
      return ⟨date, clock, offset⟩

/-- Reads a moment that exists. -/
def Moment.ofIso (text : String) : Except IsoFault Moment :=
  match Moment.read? text.toList with
  | none => .error (.malformed text)
  | some moment =>
      match moment.fault? with
      | some fault => .error (.impossible fault)
      | none => .ok moment

end Mson.Time
