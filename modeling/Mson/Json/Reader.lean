import Mson.Json.Basic

/-!
# Reading JSON text

Reads a JSON text into a `Json` value. Beyond the grammar of JSON the words `NaN`, `Infinity` and
`-Infinity` stand for the doubles of that name. A number without fraction and exponent is an integer
of any size, any other the nearest binary64 number. Of a name given twice in one object the last
value counts, at the place of the first.

Every reader takes the text still to be read and returns what is left of it, so a position is known
by the length of the rest: `Fault.remaining` counts the characters from the fault to the end.
-/
namespace Mson.Json

inductive FaultCause where
  | expectingValue
  | expectingPropertyName
  | expectingColon
  | expectingComma
  | extraData
  | unterminatedString
  | invalidControlCharacter
  | invalidEscape
  | invalidUnicodeEscape
  | byteOrderMark
  /-- An integer has more digits than are read. -/
  | tooManyDigits (count : Nat)
  deriving DecidableEq, Repr

/-- What is wrong with a text, and how many of its characters are left from there on. -/
structure Fault where
  cause : FaultCause
  remaining : Nat
  deriving DecidableEq, Repr

/-- Integers of more digits than this are refused. -/
def digitLimit : Nat := 4300

def isBlank (c : Char) : Bool := c == ' ' || c == '\t' || c == '\n' || c == '\r'

def skipBlanks : List Char → List Char
  | [] => []
  | c :: rest => if isBlank c then skipBlanks rest else c :: rest

def isDigit (c : Char) : Bool := '0' ≤ c && c ≤ '9'

def digitsValue (digits : List Char) : Nat :=
  digits.foldl (fun value c => 10 * value + (c.toNat - '0'.toNat)) 0

/-! ## Strings -/

def hexValue? (c : Char) : Option Nat :=
  if isDigit c then some (c.toNat - '0'.toNat)
  else if 'a' ≤ c && c ≤ 'f' then some (c.toNat - 'a'.toNat + 10)
  else if 'A' ≤ c && c ≤ 'F' then some (c.toNat - 'A'.toNat + 10)
  else none

/-- The code unit that four hexadecimal digits denote. -/
def codeUnit? (a b c d : Char) : Option Nat := do
  let a ← hexValue? a
  let b ← hexValue? b
  let c ← hexValue? c
  let d ← hexValue? d
  return ((a * 16 + b) * 16 + c) * 16 + d

def isHighSurrogate (unit : Nat) : Bool := 0xD800 ≤ unit && unit < 0xDC00

def isLowSurrogate (unit : Nat) : Bool := 0xDC00 ≤ unit && unit < 0xE000

def joinSurrogates (high low : Nat) : Char :=
  Char.ofNat (0x10000 + (high - 0xD800) * 0x400 + (low - 0xDC00))

/-- The character of one code unit; a surrogate on its own is read as U+FFFD. -/
def unitChar (unit : Nat) : Char :=
  if isHighSurrogate unit || isLowSurrogate unit then '\uFFFD' else Char.ofNat unit

/-- The character that a backslash and `c` stand for. -/
def simpleEscape? (c : Char) : Option Char :=
  if c = '\x22' || c = '\\' || c = '/' then some c
  else if c = 'b' then some '\x08'
  else if c = 'f' then some '\x0c'
  else if c = 'n' then some '\n'
  else if c = 'r' then some '\r'
  else if c = 't' then some '\t'
  else none

/-- Reads a string after its opening quote; `opening` is the length of the text from that quote on.
A `\u` escape needs a character after its four digits. -/
def readString (opening : Nat) (built : List Char) : List Char → Except Fault (String × List Char)
  | [] => .error ⟨.unterminatedString, opening⟩
  | '\\' :: 'u' :: a :: b :: c :: d :: '\\' :: 'u' :: e :: f :: g :: h :: next :: rest =>
      match codeUnit? a b c d with
      | none => .error ⟨.invalidUnicodeEscape, rest.length + 12⟩
      | some unit =>
          if isHighSurrogate unit then
            match codeUnit? e f g h with
            | none => .error ⟨.invalidUnicodeEscape, rest.length + 6⟩
            | some low =>
                if isLowSurrogate low then
                  readString opening (joinSurrogates unit low :: built) (next :: rest)
                else
                  readString opening (unitChar unit :: built)
                    ('\\' :: 'u' :: e :: f :: g :: h :: next :: rest)
          else
            readString opening (unitChar unit :: built)
              ('\\' :: 'u' :: e :: f :: g :: h :: next :: rest)
  | '\\' :: 'u' :: a :: b :: c :: d :: next :: rest =>
      match codeUnit? a b c d with
      | none => .error ⟨.invalidUnicodeEscape, rest.length + 6⟩
      | some unit => readString opening (unitChar unit :: built) (next :: rest)
  | '\\' :: 'u' :: rest => .error ⟨.invalidUnicodeEscape, rest.length + 1⟩
  | '\\' :: c :: rest =>
      match simpleEscape? c with
      | some escaped => readString opening (escaped :: built) rest
      | none => .error ⟨.invalidEscape, rest.length + 2⟩
  | ['\\'] => .error ⟨.unterminatedString, opening⟩
  | c :: rest =>
      if c = '\x22' then .ok (String.ofList built.reverse, rest)
      else if c.toNat < 0x20 then .error ⟨.invalidControlCharacter, rest.length + 1⟩
      else readString opening (c :: built) rest

/-! ## Numbers -/

/-- The digits of a fraction, if a point with a digit follows. -/
def fractionDigits : List Char → Option (List Char × List Char)
  | '.' :: c :: rest =>
      if isDigit c then some ((c :: rest).takeWhile isDigit, (c :: rest).dropWhile isDigit)
      else none
  | _ => none

/-- The sign and digits of an exponent, if one with a digit follows. -/
def exponentDigits : List Char → Option (Bool × List Char × List Char)
  | mark :: rest =>
      if mark = 'e' || mark = 'E' then
        let (negative, body) := match rest with
          | '-' :: body => (true, body)
          | '+' :: body => (false, body)
          | body => (false, body)
        let digits := body.takeWhile isDigit
        if digits.isEmpty then none else some (negative, digits, body.dropWhile isDigit)
      else none
  | [] => none

/-- Reads a number whose sign has been read; `whole` are its integer digits. -/
def readNumberTail (negative : Bool) (whole : List Char) (start : Nat) (text : List Char) :
    Except Fault (Json × List Char) :=
  let (fraction, afterFraction) := match fractionDigits text with
    | some (digits, rest) => (digits, rest)
    | none => ([], text)
  match exponentDigits afterFraction with
  | some (exponentNegative, digits, rest) =>
      let exponent : Int := digitsValue digits
      let exponent := if exponentNegative then -exponent else exponent
      .ok (.double (.ofDecimal negative (digitsValue (whole ++ fraction))
        (exponent - fraction.length)), rest)
  | none =>
      if fraction.isEmpty then
        if digitLimit < whole.length then .error ⟨.tooManyDigits whole.length, start⟩
        else
          let value : Int := digitsValue whole
          .ok (.int (if negative then -value else value), text)
      else
        .ok (.double (.ofDecimal negative (digitsValue (whole ++ fraction)) (-fraction.length)),
          afterFraction)

/-- Reads a number. A leading zero is an integer part of its own. -/
def readNumber (text : List Char) : Except Fault (Json × List Char) :=
  let (negative, body) := match text with
    | '-' :: body => (true, body)
    | body => (false, body)
  match body with
  | '0' :: rest => readNumberTail negative ['0'] text.length rest
  | c :: _ =>
      if isDigit c then
        readNumberTail negative (body.takeWhile isDigit) text.length (body.dropWhile isDigit)
      else .error ⟨.expectingValue, text.length⟩
  | [] => .error ⟨.expectingValue, text.length⟩

/-! ## Values -/

/-- The text after `word`, if it begins with it. -/
def afterWord? : List Char → List Char → Option (List Char)
  | [], text => some text
  | w :: word, c :: text => if w = c then afterWord? word text else none
  | _ :: _, [] => none

/-- The words that are values. -/
def words : List (String × Json) :=
  [("null", .null), ("true", .bool true), ("false", .bool false), ("NaN", .double .nan),
    ("Infinity", .double (.infinity false)), ("-Infinity", .double (.infinity true))]

/-- Reads a value that is a word or a number. -/
def readScalar (text : List Char) : Except Fault (Json × List Char) :=
  match words.findSome? fun word =>
      (afterWord? word.1.toList text).map fun rest => (word.2, rest) with
  | some found => .ok found
  | none => readNumber text

mutual

/-- Reads the value with which the text begins. Every call is on a shorter text or stands before
one, so twice the length of the text is fuel enough. -/
def readValue (fuel : Nat) (text : List Char) : Except Fault (Json × List Char) :=
  match fuel with
  | 0 => .error ⟨.expectingValue, text.length⟩
  | fuel + 1 =>
      match text with
      | '\x22' :: rest => do
          let (value, rest) ← readString text.length [] rest
          return (.string value, rest)
      | '[' :: rest =>
          match skipBlanks rest with
          | ']' :: rest => .ok (.array [], rest)
          | rest => do
              let (items, rest) ← readItems fuel rest
              return (.array items, rest)
      | '\x7b' :: rest =>
          match skipBlanks rest with
          | '\x7d' :: rest => .ok (.object [], rest)
          | rest => do
              let (entries, rest) ← readEntries fuel rest
              return (.object (Mapping.ofEntries entries), rest)
      | text => readScalar text

/-- Reads the items of an array up to its closing bracket. -/
def readItems (fuel : Nat) (text : List Char) : Except Fault (List Json × List Char) :=
  match fuel with
  | 0 => .error ⟨.expectingValue, text.length⟩
  | fuel + 1 => do
      let (item, rest) ← readValue fuel text
      match skipBlanks rest with
      | ']' :: rest => return ([item], rest)
      | ',' :: rest => do
          let (items, rest) ← readItems fuel (skipBlanks rest)
          return (item :: items, rest)
      | rest => .error ⟨.expectingComma, rest.length⟩

/-- Reads the entries of an object up to its closing brace. -/
def readEntries (fuel : Nat) (text : List Char) : Except Fault (List (String × Json) × List Char) :=
  match fuel with
  | 0 => .error ⟨.expectingValue, text.length⟩
  | fuel + 1 =>
      match text with
      | '\x22' :: rest => do
          let (name, rest) ← readString text.length [] rest
          match skipBlanks rest with
          | ':' :: rest => do
              let (value, rest) ← readValue fuel (skipBlanks rest)
              match skipBlanks rest with
              | '\x7d' :: rest => return ([(name, value)], rest)
              | ',' :: rest => do
                  let (entries, rest) ← readEntries fuel (skipBlanks rest)
                  return ((name, value) :: entries, rest)
              | rest => .error ⟨.expectingComma, rest.length⟩
          | rest => .error ⟨.expectingColon, rest.length⟩
      | text => .error ⟨.expectingPropertyName, text.length⟩

end

/-- Reads a text that is one value between blanks. -/
def readChars (text : List Char) : Except Fault Json :=
  match text with
  | '\uFEFF' :: _ => .error ⟨.byteOrderMark, text.length⟩
  | text => do
      let (value, rest) ← readValue (2 * text.length + 1) (skipBlanks text)
      match skipBlanks rest with
      | [] => return value
      | rest => .error ⟨.extraData, rest.length⟩

/-! ## Fault messages -/

/-- The text of a cause that is reported with its place. -/
def FaultCause.text : FaultCause → String
  | .expectingValue => "Expecting value"
  | .expectingPropertyName => "Expecting property name enclosed in double quotes"
  | .expectingColon => "Expecting ':' delimiter"
  | .expectingComma => "Expecting ',' delimiter"
  | .extraData => "Extra data"
  | .unterminatedString => "Unterminated string starting at"
  | .invalidControlCharacter => "Invalid control character at"
  | .invalidEscape => "Invalid \\escape"
  | .invalidUnicodeEscape => "Invalid \\uXXXX escape"
  | .byteOrderMark => "Unexpected UTF-8 BOM (decode using utf-8-sig)"
  | .tooManyDigits count =>
      s!"Exceeds the limit ({digitLimit} digits) for integer string conversion: " ++
        s!"value has {count} digits; use sys.set_int_max_str_digits() to increase the limit"

/-- The line and the column of the character after `before`, both counted from one. -/
def lineAndColumn (before : List Char) : Nat × Nat :=
  before.foldl (fun (line, column) c => if c = '\n' then (line + 1, 1) else (line, column + 1))
    (1, 1)

/-- Whether the text breaks the grammar, rather than a limit on the size of numbers. -/
def FaultCause.isGrammatical : FaultCause → Bool
  | .tooManyDigits _ => false
  | _ => true

/-- A fault in words, with its place in the text. -/
def Fault.message (fault : Fault) (text : List Char) : String :=
  if fault.cause.isGrammatical then
    let position := text.length - fault.remaining
    let (line, column) := lineAndColumn (text.take position)
    s!"{fault.cause.text}: line {line} column {column} (char {position})"
  else fault.cause.text

/-- Reads a JSON text. -/
def read (text : String) : Except Fault Json := readChars text.toList

end Mson.Json
