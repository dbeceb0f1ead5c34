/-!
# Places in a YAML text

A cursor is the rest of a text and the place where it begins. A line ends in a line feed, a
carriage return or both, a next line character, or a line or paragraph separator; the byte order
mark takes no column.
-/
namespace Mson.Yaml

def isBreak (c : Char) : Bool :=
  c == '\n' || c == '\r' || c == '\u0085' || c == '\u2028' || c == '\u2029'

def isSpace (c : Char) : Bool := c == ' '

def isSpaceOrTab (c : Char) : Bool := c == ' ' || c == '\t'

def isNoBreak (c : Char) : Bool := !isBreak c

/-- A letter or digit of ASCII, a hyphen or an underscore. -/
def isWordChar (c : Char) : Bool := c.isAlphanum || c == '-' || c == '_'

structure Cursor where
  rest : List Char
  index : Nat
  line : Nat
  column : Nat

namespace Cursor

def start (text : List Char) : Cursor := ⟨text, 0, 0, 0⟩

def atEnd (cursor : Cursor) : Bool := cursor.rest.isEmpty

/-- The character `ahead` places further on. -/
def peek (cursor : Cursor) (ahead : Nat) : Option Char := cursor.rest[ahead]?

def current (cursor : Cursor) : Option Char := cursor.rest.head?

/-- Goes on by one character. A carriage return before a line feed does not end the line yet. -/
def advance (cursor : Cursor) : Cursor :=
  match cursor.rest with
  | [] => cursor
  | c :: rest =>
      let next : Cursor := { cursor with rest, index := cursor.index + 1 }
      if isBreak c && !(c == '\r' && rest.head? == some '\n') then
        { next with line := cursor.line + 1, column := 0 }
      else if c == '\uFEFF' then next
      else { next with column := cursor.column + 1 }

def advanceBy : Nat → Cursor → Cursor
  | 0, cursor => cursor
  | count + 1, cursor => advanceBy count cursor.advance

/-- The longest run of such characters, and the place after it. -/
def span (cursor : Cursor) (accept : Char → Bool) : List Char × Cursor :=
  let run := cursor.rest.takeWhile accept
  (run, advanceBy run.length cursor)

def skip (cursor : Cursor) (accept : Char → Bool) : Cursor := (cursor.span accept).2

/-- Whether the current character, if there is one, satisfies a condition. -/
def currentIs (cursor : Cursor) (accept : Char → Bool) : Bool := cursor.current.any accept

/-- Whether a line or the text ends here. -/
def atLineEnd (cursor : Cursor) : Bool := cursor.current.all isBreak

/-- Whether a blank, a line end or the end of the text is `ahead` places further on. -/
def isGapAt (cursor : Cursor) (ahead : Nat) : Bool :=
  (cursor.peek ahead).all fun c => isSpaceOrTab c || isBreak c

/-- The same without tabs. -/
def isSpaceOrLineEnd (cursor : Cursor) : Bool :=
  cursor.current.all fun c => isSpace c || isBreak c

/-- The line end here, as it counts in scalars: separators are kept, all others are line feeds. -/
def lineBreak? (cursor : Cursor) : Option (Char × Cursor) :=
  match cursor.rest with
  | '\r' :: '\n' :: _ => some ('\n', advanceBy 2 cursor)
  | c :: _ =>
      if c == '\u2028' || c == '\u2029' then some (c, cursor.advance)
      else if isBreak c then some ('\n', cursor.advance)
      else none
  | [] => none

/-- Whether a line of three such marks and a gap begins here. -/
def isMarkedBy (cursor : Cursor) (mark : Char) : Bool :=
  cursor.rest.take 3 == [mark, mark, mark] && cursor.isGapAt 3

/-- Whether a document begins or ends here. -/
def isSeparator (cursor : Cursor) : Bool := cursor.isMarkedBy '-' || cursor.isMarkedBy '.'

/-- Passes over blanks and a comment to the end of the line. -/
def skipComment (cursor : Cursor) : Cursor :=
  let cursor := cursor.skip isSpace
  if cursor.current = some '#' then cursor.skip isNoBreak else cursor

end Cursor

end Mson.Yaml
