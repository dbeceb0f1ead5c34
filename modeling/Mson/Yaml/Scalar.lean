import Mson.Yaml.Token

/-!
# Scalars of YAML

The readers of plain, quoted and block scalars. Where a scalar goes over several lines, one line end
within it becomes a blank and further ones stay; a block scalar may keep all.
-/
namespace Mson.Yaml.Scalar

/-- Text that has been read, and the place after it. -/
abbrev Piece := List Char × Cursor

/-- The line ends of a scalar: the first one is folded unless it is a separator. -/
def foldBreaks (first : Char) (others : List Char) : List Char :=
  if first ≠ '\n' then first :: others
  else if others.isEmpty then [' ']
  else others

/-! ## Plain scalars -/

/-- Whether a plain scalar ends at the head of the text. -/
def endsPlain (inFlow : Bool) : List Char → Bool
  | [] => true
  | c :: rest =>
      isSpaceOrTab c || isBreak c ||
        (c == ':' && rest.head?.all fun next =>
          isSpaceOrTab next || isBreak next || (inFlow && ",[]\x7b\x7d".toList.contains next)) ||
        (inFlow && ",?[]\x7b\x7d".toList.contains c)

/-- The characters of a plain scalar up to the first that ends it. -/
def plainRun (inFlow : Bool) : List Char → List Char
  | [] => []
  | c :: rest => if endsPlain inFlow (c :: rest) then [] else c :: plainRun inFlow rest

/-- Line ends and blanks up to the next text, unless a document ends before it. -/
def plainBreaks (fuel : Nat) (cursor : Cursor) : Option Piece :=
  match fuel with
  | 0 => some ([], cursor)
  | fuel + 1 =>
      if cursor.current = some ' ' then plainBreaks fuel cursor.advance
      else match cursor.lineBreak? with
        | none => some ([], cursor)
        | some (c, after) =>
            if after.isSeparator then none
            else (plainBreaks fuel after).map fun (breaks, after) => (c :: breaks, after)

/-- What stands between two words of a plain scalar, the place after it, and whether a line ended. A
separator of documents ends the scalar, and then there is nothing between. -/
def plainGap (cursor : Cursor) : List Char × Cursor × Bool :=
  let (blanks, cursor) := cursor.span isSpace
  match cursor.lineBreak? with
  | none => (blanks, cursor, false)
  | some (first, after) =>
      if after.isSeparator then ([], after, true)
      else match plainBreaks (after.rest.length + 1) after with
        | some (others, after) => (foldBreaks first others, after, true)
        | none => ([], after, true)

/-- A plain scalar and the place after it, and whether a simple key may come next. -/
structure Plain where
  text : List Char
  after : Cursor
  keyAllowed : Bool

/-- Goes on with a plain scalar; `gap` is what stands before the next word. -/
def plainWords (inFlow : Bool) (indent : Int) (fuel : Nat) (gap : List Char) (sofar : Plain) :
    Plain :=
  match fuel with
  | 0 => sofar
  | fuel + 1 =>
      let cursor := sofar.after
      if cursor.current = some '#' then sofar
      else
        let run := plainRun inFlow cursor.rest
        if run.isEmpty then sofar
        else
          let (next, after, broken) := plainGap (cursor.advanceBy run.length)
          let plain : Plain := ⟨sofar.text ++ gap ++ run, after, broken⟩
          if next.isEmpty || after.current = some '#' || (!inFlow && after.column < indent) then
            plain
          else plainWords inFlow indent fuel next plain

/-- Reads a plain scalar; outside brackets its further lines are indented by `indent` at least. -/
def readPlain (inFlow : Bool) (indent : Int) (cursor : Cursor) : Plain :=
  plainWords inFlow indent (cursor.rest.length + 1) [] ⟨[], cursor, false⟩

/-! ## Quoted scalars -/

/-- The character that a backslash and `c` stand for. -/
def escaped? (c : Char) : Option Char :=
  [('0', '\x00'), ('a', '\x07'), ('b', '\x08'), ('t', '\t'), ('\t', '\t'), ('n', '\n'),
    ('v', '\x0b'), ('f', '\x0c'), ('r', '\r'), ('e', '\x1b'), (' ', ' '), ('\x22', '\x22'),
    ('\\', '\\'), ('/', '/'), ('N', '\u0085'), ('_', '\u00a0'), ('L', '\u2028'),
    ('P', '\u2029')].lookup c

/-- How many hexadecimal digits follow in a numeric escape. -/
def escapeWidth? (c : Char) : Option Nat := [('x', 2), ('u', 4), ('U', 8)].lookup c

/-- The character of a numeric escape; surrogates are read as U+FFFD. -/
def escapedNumber (digits : List Char) : Except Fault Char :=
  let n := Token.hexValue digits
  if 0x7FFFFFFF < n then .error .escapeTooLarge
  else if 0x10FFFF < n then .error .escapeOutOfRange
  else if 0xD800 ≤ n ∧ n < 0xE000 then .ok '\uFFFD'
  else .ok (Char.ofNat n)

/-- Line ends and blanks in a quoted scalar. -/
def quotedBreaks (fuel : Nat) (cursor : Cursor) : Except Fault Piece :=
  match fuel with
  | 0 => .ok ([], cursor)
  | fuel + 1 =>
      if cursor.isSeparator then .error .separatorInScalar
      else
        let cursor := cursor.skip isSpaceOrTab
        match cursor.lineBreak? with
        | none => .ok ([], cursor)
        | some (c, after) => do
            let (breaks, after) ← quotedBreaks fuel after
            return (c :: breaks, after)

/-- The rest of a quoted scalar after its opening quote. -/
def readQuoted (double : Bool) (fuel : Nat) (cursor : Cursor) : Except Fault Piece :=
  match fuel with
  | 0 => .error .unterminatedScalar
  | fuel + 1 =>
      let mark := if double then '\x22' else '\x27'
      let goOn (chars : List Char) (after : Cursor) : Except Fault Piece := do
        let (rest, after) ← readQuoted double fuel after
        return (chars ++ rest, after)
      match cursor.rest with
      | [] => .error .unterminatedScalar
      | c :: rest =>
          if !double && c == mark && rest.head? == some mark then
            goOn [mark] (cursor.advanceBy 2)
          else if c == mark then .ok ([], cursor.advance)
          else if double && c == '\\' then
            match rest with
            | [] => .error .badEscape
            | e :: _ =>
                match escaped? e, escapeWidth? e with
                | some character, _ => goOn [character] (cursor.advanceBy 2)
                | none, some width => do
                    let after := cursor.advanceBy 2
                    let digits := after.rest.take width
                    unless digits.length = width && digits.all Token.isHexDigit do
                      throw .badEscape
                    goOn [← escapedNumber digits] (after.advanceBy width)
                | none, none =>
                    match cursor.advance.lineBreak? with
                    | some (_, after) => do
                        let (breaks, after) ← quotedBreaks (after.rest.length + 1) after
                        goOn breaks after
                    | none => .error .badEscape
          else if isSpaceOrTab c || isBreak c then
            let (blanks, after) := cursor.span isSpaceOrTab
            match after.lineBreak? with
            | some (first, after) => do
                let (others, after) ← quotedBreaks (after.rest.length + 1) after
                goOn (foldBreaks first others) after
            | none => if after.atEnd then .error .unterminatedScalar else goOn blanks after
          else
            let (run, after) := cursor.span fun c =>
              !(c == '\x22' || c == '\x27' || c == '\\' || isSpaceOrTab c || isBreak c)
            if run.isEmpty then goOn [c] cursor.advance else goOn run after

/-! ## Block scalars -/

/-- What becomes of the line ends after a block scalar. -/
inductive Chomping where
  | strip
  | clip
  | keep
  deriving DecidableEq, Repr

def chomping? (c : Char) : Option Chomping :=
  if c = '+' then some .keep else if c = '-' then some .strip else none

/-- A digit that gives the indentation; zero gives none. -/
def increment? (c : Char) : Option (Except Fault Nat) :=
  if c.isDigit then
    some (if c = '0' then .error .badBlockHeader else .ok (c.toNat - '0'.toNat))
  else none

/-- How a block scalar ends and, if given, by how much it is indented; either may come first. -/
def readBlockHeader (cursor : Cursor) : Except Fault (Chomping × Option Nat × Cursor) := do
  let finish (chomping : Chomping) (increment : Option Nat) (after : Cursor) :
      Except Fault (Chomping × Option Nat × Cursor) :=
    if after.isSpaceOrLineEnd then .ok (chomping, increment, after) else .error .badBlockHeader
  match cursor.current.bind chomping? with
  | some chomping =>
      let after := cursor.advance
      match after.current.bind increment? with
      | some increment => finish chomping (some (← increment)) after.advance
      | none => finish chomping none after
  | none =>
      match cursor.current.bind increment? with
      | some increment => do
          let increment ← increment
          let after := cursor.advance
          match after.current.bind chomping? with
          | some chomping => finish chomping (some increment) after.advance
          | none => finish .clip (some increment) after
      | none => finish .clip none cursor

/-- The line ends before the first line with text, and the deepest indentation on the way. -/
def blockIndentation (fuel deepest : Nat) (cursor : Cursor) : List Char × Nat × Cursor :=
  match fuel with
  | 0 => ([], deepest, cursor)
  | fuel + 1 =>
      if cursor.current = some ' ' then
        let after := cursor.advance
        blockIndentation fuel (max deepest after.column) after
      else match cursor.lineBreak? with
        | none => ([], deepest, cursor)
        | some (c, after) =>
            let (breaks, deepest, after) := blockIndentation fuel deepest after
            (c :: breaks, deepest, after)

/-- Passes over blanks up to a column. -/
def skipToColumn (indent : Int) (cursor : Cursor) : Cursor :=
  let blanks := (cursor.rest.takeWhile isSpace).length
  cursor.advanceBy (min blanks (indent - cursor.column).toNat)

/-- The line ends before the next line with text. -/
def blockBreaks (indent : Int) (fuel : Nat) (cursor : Cursor) : Piece :=
  match fuel with
  | 0 => ([], cursor)
  | fuel + 1 =>
      let cursor := skipToColumn indent cursor
      match cursor.lineBreak? with
      | none => ([], cursor)
      | some (c, after) =>
          let (breaks, after) := blockBreaks indent fuel after
          (c :: breaks, after)

/-- The lines of a block scalar: their text, the line end of the last one, and those after it. -/
def blockLines (folded : Bool) (indent : Int) (fuel : Nat) (breaks : List Char) (cursor : Cursor) :
    List Char × List Char × List Char × Cursor :=
  match fuel with
  | 0 => ([], [], breaks, cursor)
  | fuel + 1 =>
      let indentedMore := cursor.currentIs isSpaceOrTab
      let (line, after) := cursor.span isNoBreak
      let (ending, after) := match after.lineBreak? with
        | some (c, after) => ([c], after)
        | none => ([], after)
      let (next, after) := blockBreaks indent (after.rest.length + 1) after
      if after.column = indent ∧ ¬ after.atEnd then
        let joint :=
          if folded && ending == ['\n'] && !indentedMore && !after.currentIs isSpaceOrTab then
            (if next.isEmpty then [' '] else [])
          else ending
        let (rest, last, tail, final) := blockLines folded indent fuel next after
        (breaks ++ line ++ joint ++ rest, last, tail, final)
      else (breaks ++ line, ending, next, after)

/-- Reads a block scalar from its indicator on; `parent` is the indentation of what it belongs to.
-/
def readBlock (folded : Bool) (parent : Int) (cursor : Cursor) : Except Fault Piece := do
  let (chomping, increment, cursor) ← readBlockHeader cursor.advance
  let cursor := cursor.skipComment
  let cursor ← match cursor.lineBreak? with
    | some (_, after) => pure after
    | none => if cursor.atEnd then pure cursor else throw .badBlockHeader
  let least := max 1 (parent + 1)
  let fuel := cursor.rest.length + 1
  let (breaks, indent, start) := match increment with
    | none =>
        let (breaks, deepest, after) := blockIndentation fuel 0 cursor
        (breaks, max least deepest, after)
    | some increment =>
        let indent := least + increment - 1
        let (breaks, after) := blockBreaks indent fuel cursor
        (breaks, indent, after)
  let (text, last, tail, after) :=
    if start.column = indent ∧ ¬ start.atEnd then blockLines folded indent fuel breaks start
    else ([], [], breaks, start)
  return match chomping with
    | .strip => (text, after)
    | .clip => (text ++ last, after)
    | .keep => (text ++ last ++ tail, after)

end Mson.Yaml.Scalar
