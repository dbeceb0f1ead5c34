import Mson.Text.Integer
import Mson.Yaml.Cursor
import Mson.Yaml.Fault

/-!
# Tokens of YAML

The tokens of a text and the readers of those that take more than one character and are no scalars:
directives, anchors, aliases and tags.
-/
namespace Mson.Yaml

inductive Token where
  | version (major : Nat)
  | handle (name stem : String)
  | otherDirective
  | documentStart
  | documentEnd
  | streamEnd
  | blockSequenceStart
  | blockMappingStart
  | blockEnd
  | flowSequenceStart
  | flowSequenceEnd
  | flowMappingStart
  | flowMappingEnd
  | blockEntry
  | flowEntry
  | key
  | value
  | alias (name : String)
  | anchor (name : String)
  /-- A tag: a handle that stands for the beginning of the tag, unless it is given in full, and the
  rest of it. -/
  | tag (handle : Option String) (suffix : String)
  | scalar (text : String) (plain : Bool)
  deriving DecidableEq, Repr

namespace Token

def textOf (chars : List Char) : String := String.ofList chars

def hexValue (digits : List Char) : Nat :=
  digits.foldl (fun value c =>
    let digit := if c.isDigit then c.toNat - '0'.toNat
      else if 'a' ≤ c then c.toNat - 'a'.toNat + 10
      else c.toNat - 'A'.toNat + 10
    16 * value + digit) 0

def decimalValue (digits : List Char) : Nat :=
  digits.foldl (fun value c => 10 * value + (c.toNat - '0'.toNat)) 0

def isHexDigit (c : Char) : Bool :=
  c.isDigit || ('a' ≤ c && c ≤ 'f') || ('A' ≤ c && c ≤ 'F')

/-! ## Tags -/

/-- Reads a handle: one exclamation mark, or a word between two. -/
def readHandle (cursor : Cursor) : Except Fault (String × Cursor) :=
  match cursor.rest with
  | '!' :: ' ' :: _ => .ok ("!", cursor.advance)
  | '!' :: _ =>
      let (word, after) := cursor.advance.span isWordChar
      if after.current = some '!' then .ok (textOf ('!' :: word ++ ['!']), after.advance)
      else .error .badTag
  | _ => .error .badTag

def isUriChar (c : Char) : Bool :=
  c.isAlphanum || "-;/?:@&=+$,_.!~*\x27()[]%".toList.contains c

/-- Replaces the percent escapes of a tag by the bytes they stand for. -/
def uriBytes : List Char → Except Fault (List UInt8)
  | [] => .ok []
  | '%' :: a :: b :: rest =>
      if isHexDigit a && isHexDigit b then do
        return UInt8.ofNat (hexValue [a, b]) :: (← uriBytes rest)
      else .error .badTag
  | '%' :: _ => .error .badTag
  | c :: rest => do return (String.singleton c).toUTF8.toList ++ (← uriBytes rest)

def readUri (cursor : Cursor) : Except Fault (String × Cursor) := do
  let (chars, after) := cursor.span isUriChar
  if chars.isEmpty then throw .badTag
  let bytes ← uriBytes chars
  match String.fromUTF8? (ByteArray.mk bytes.toArray) with
  | some text => return (text, after)
  | none => throw .badTag

/-- Whether an exclamation mark comes before the next gap. -/
def hasSecondMark (text : List Char) : Bool :=
  (text.takeWhile fun c => !(isSpace c || isBreak c)).contains '!'

/-- Reads a tag. What follows it is a space or the end of the line. -/
def readTag (cursor : Cursor) : Except Fault (Token × Cursor) := do
  let (token, after) ← match cursor.peek 1 with
    | some '<' => do
        let (uri, after) ← readUri (cursor.advanceBy 2)
        if after.current = some '>' then pure (Token.tag none uri, after.advance)
        else throw .badTag
    | _ =>
        if cursor.isGapAt 1 then pure (Token.tag none "!", cursor.advance)
        else if hasSecondMark (cursor.rest.drop 1) then do
          let (found, after) ← readHandle cursor
          let (uri, after) ← readUri after
          pure (Token.tag (some found) uri, after)
        else do
          let (uri, after) ← readUri cursor.advance
          pure (Token.tag (some "!") uri, after)
  if after.isSpaceOrLineEnd then return (token, after) else throw .badTag

/-! ## Anchors and directives -/

/-- Characters that may follow an anchor or alias at once. -/
def mayFollowAnchor (c : Char) : Bool :=
  isSpaceOrTab c || isBreak c || "?:,]\x7d%@\x60".toList.contains c

def readAnchor (make : String → Token) (cursor : Cursor) : Except Fault (Token × Cursor) :=
  let (name, after) := cursor.advance.span isWordChar
  if name.isEmpty || !after.current.all mayFollowAnchor then .error .badAnchor
  else .ok (make (textOf name), after)

def readDirectiveNumber (cursor : Cursor) : Except Fault (Nat × Cursor) :=
  let (digits, after) := cursor.span Char.isDigit
  if digits.isEmpty then .error .badDirective
  else if Text.digitLimit < digits.length then .error (.tooManyDigits digits.length)
  else .ok (decimalValue digits, after)

def readVersion (cursor : Cursor) : Except Fault (Token × Cursor) := do
  let (major, after) ← readDirectiveNumber (cursor.skip isSpace)
  unless after.current = some '.' do throw .badDirective
  let (_, after) ← readDirectiveNumber after.advance
  unless after.isSpaceOrLineEnd do throw .badDirective
  return (.version major, after)

def readHandleDefinition (cursor : Cursor) : Except Fault (Token × Cursor) := do
  let (name, after) ← readHandle (cursor.skip isSpace)
  unless after.current = some ' ' do throw .badDirective
  let (stem, after) ← readUri (after.skip isSpace)
  unless after.isSpaceOrLineEnd do throw .badDirective
  return (.handle name stem, after)

/-- Reads a directive and the rest of its line, where only a comment may stand. -/
def readDirective (cursor : Cursor) : Except Fault (Token × Cursor) := do
  let (name, after) := cursor.advance.span isWordChar
  if name.isEmpty || !after.isSpaceOrLineEnd then throw .badDirective
  let (token, after) ←
    if name = ['Y', 'A', 'M', 'L'] then readVersion after
    else if name = ['T', 'A', 'G'] then readHandleDefinition after
    else pure (.otherDirective, after.skip isNoBreak)
  let after := after.skipComment
  match after.lineBreak? with
  | some (_, after) => return (token, after)
  | none => if after.atEnd then return (token, after) else throw .badDirective

end Token

end Mson.Yaml
