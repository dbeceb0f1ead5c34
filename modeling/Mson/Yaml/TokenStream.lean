import Mson.Yaml.Scalar

/-!
# The tokens of a text

Outside brackets indentation opens and closes collections, and a scalar turns out to be a key only
when its colon comes. The scanner therefore remembers, for every level of brackets, the last token
that may be a key: a key and its colon stand on one line, at most 1024 characters apart.
-/
namespace Mson.Yaml

/-- A token that may turn out to be a key. -/
structure PossibleKey where
  /-- Its index among the tokens. -/
  token : Nat
  /-- Nothing else can stand here, so the colon has to come. -/
  required : Bool
  index : Nat
  line : Nat
  column : Nat

structure Scanner where
  cursor : Cursor
  tokens : Array Token
  /-- How many brackets are open. -/
  brackets : Nat
  /-- The column of the innermost block collection; -1 if there is none. -/
  indent : Int
  outerIndents : List Int
  keyAllowed : Bool
  /-- The possible keys by level of brackets. -/
  possibleKeys : List (Nat × PossibleKey)

/-- The tokens of a text that can be told, and the fault that hides the others. -/
structure TokenStream where
  tokens : List Token
  fault : Option Fault

namespace Scanner

/-- A possible key and its colon are at most this far apart. -/
def keyLength : Nat := 1024

def start (text : List Char) : Scanner where
  cursor := Cursor.start text
  tokens := #[]
  brackets := 0
  indent := -1
  outerIndents := []
  keyAllowed := true
  possibleKeys := []

def inFlow (scanner : Scanner) : Bool := scanner.brackets != 0

def column (scanner : Scanner) : Int := scanner.cursor.column

def push (scanner : Scanner) (token : Token) : Scanner :=
  { scanner with tokens := scanner.tokens.push token }

/-- Puts a token in front of an earlier one. -/
def insert (scanner : Scanner) (index : Nat) (token : Token) : Scanner :=
  { scanner with tokens := scanner.tokens.insertIdxIfInBounds index token }

/-- Goes on after a token of `length` characters. -/
def take (scanner : Scanner) (length : Nat) (token : Token) : Scanner :=
  { scanner.push token with cursor := scanner.cursor.advanceBy length }

/-! ## Possible keys -/

def isStale (scanner : Scanner) (key : PossibleKey) : Bool :=
  key.line != scanner.cursor.line || keyLength < scanner.cursor.index - key.index

/-- Forgets the keys whose colon can no longer come. -/
def dropStaleKeys (scanner : Scanner) : Except Fault Scanner :=
  let (stale, kept) := scanner.possibleKeys.partition fun entry => scanner.isStale entry.2
  if stale.any fun entry => entry.2.required then .error .keyWithoutColon
  else .ok { scanner with possibleKeys := kept }

/-- Forgets the possible key at this level of brackets. -/
def dropKey (scanner : Scanner) : Except Fault Scanner :=
  match scanner.possibleKeys.lookup scanner.brackets with
  | none => .ok scanner
  | some key =>
      if key.required then .error .keyWithoutColon
      else .ok { scanner with
        possibleKeys := scanner.possibleKeys.filter fun entry => entry.1 != scanner.brackets }

/-- Remembers the next token as a possible key, where keys are allowed. -/
def saveKey (scanner : Scanner) : Except Fault Scanner :=
  if scanner.keyAllowed then do
    let cleared ← scanner.dropKey
    let cursor := scanner.cursor
    let key : PossibleKey :=
      ⟨scanner.tokens.size, !scanner.inFlow && scanner.indent == scanner.column, cursor.index,
        cursor.line, cursor.column⟩
    return { cleared with possibleKeys := (scanner.brackets, key) :: cleared.possibleKeys }
  else .ok scanner

/-! ## Indentation -/

/-- Closes the block collections that are indented deeper than a column. -/
def unwind (column : Int) (indents : List Int) (scanner : Scanner) : Scanner :=
  if scanner.inFlow then scanner
  else if column < scanner.indent then
    match indents with
    | [] => { scanner.push .blockEnd with indent := -1, outerIndents := [] }
    | outer :: others =>
        unwind column others
          { scanner.push .blockEnd with indent := outer, outerIndents := others }
  else scanner

def unwindTo (scanner : Scanner) (column : Int) : Scanner :=
  unwind column scanner.outerIndents scanner

/-- Opens a block collection at a column that is deeper than all others, with the token that says so
in front of the token at `index`. -/
def openBlock (scanner : Scanner) (column : Int) (index : Nat) (token : Token) : Scanner :=
  if scanner.indent < column then
    { scanner.insert index token with
      indent := column, outerIndents := scanner.indent :: scanner.outerIndents }
  else scanner

/-! ## Steps -/

/-- Passes over blanks, comments and line ends; a line end allows a key. -/
def skipGaps (fuel : Nat) (scanner : Scanner) : Scanner :=
  match fuel with
  | 0 => scanner
  | fuel + 1 =>
      let cursor := scanner.cursor.skipComment
      match cursor.lineBreak? with
      | some (_, after) =>
          skipGaps fuel
            { scanner with cursor := after, keyAllowed := scanner.keyAllowed || !scanner.inFlow }
      | none => { scanner with cursor }

/-- Passes over a byte order mark at the very beginning, and all gaps. -/
def toNextToken (scanner : Scanner) : Scanner :=
  let scanner :=
    if scanner.cursor.index = 0 && scanner.cursor.current = some '\uFEFF' then
      { scanner with cursor := scanner.cursor.advance }
    else scanner
  skipGaps (scanner.cursor.rest.length + 1) scanner

/-- A token at the left margin that ends every collection. -/
def atMargin (scanner : Scanner) : Except Fault Scanner := do
  let scanner ← (scanner.unwindTo (-1)).dropKey
  return { scanner with keyAllowed := false }

def openBracket (scanner : Scanner) (token : Token) : Except Fault Scanner := do
  let scanner ← scanner.saveKey
  return { scanner.take 1 token with brackets := scanner.brackets + 1, keyAllowed := true }

def closeBracket (scanner : Scanner) (token : Token) : Except Fault Scanner := do
  let scanner ← scanner.dropKey
  if scanner.brackets = 0 then throw .unbalancedBracket
  return { scanner.take 1 token with brackets := scanner.brackets - 1, keyAllowed := false }

def flowEntry (scanner : Scanner) : Except Fault Scanner := do
  let scanner ← scanner.dropKey
  return { scanner.take 1 .flowEntry with keyAllowed := true }

/-- Opens a block collection here, where a key would be allowed. -/
def openBlockHere (scanner : Scanner) (token : Token) (refusal : Fault) : Except Fault Scanner :=
  if scanner.inFlow then .ok scanner
  else if scanner.keyAllowed then .ok (scanner.openBlock scanner.column scanner.tokens.size token)
  else .error refusal

def blockEntry (scanner : Scanner) : Except Fault Scanner := do
  let scanner ← scanner.openBlockHere .blockSequenceStart .entryNotAllowed
  let scanner ← scanner.dropKey
  return { scanner.take 1 .blockEntry with keyAllowed := true }

def explicitKey (scanner : Scanner) : Except Fault Scanner := do
  let scanner ← scanner.openBlockHere .blockMappingStart .keyNotAllowed
  let scanner ← scanner.dropKey
  return { scanner.take 1 .key with keyAllowed := !scanner.inFlow }

/-- A colon: it makes a key of the possible key before it, or belongs to a key given explicitly. -/
def value (scanner : Scanner) : Except Fault Scanner :=
  match scanner.possibleKeys.lookup scanner.brackets with
  | some key =>
      let scanner := { scanner with
        possibleKeys := scanner.possibleKeys.filter fun entry => entry.1 != scanner.brackets }
      let scanner := scanner.insert key.token .key
      let scanner :=
        if scanner.inFlow then scanner
        else scanner.openBlock key.column key.token .blockMappingStart
      .ok { scanner.take 1 .value with keyAllowed := false }
  | none => do
      let scanner ← scanner.openBlockHere .blockMappingStart .valueNotAllowed
      let scanner ← scanner.dropKey
      return { scanner.take 1 .value with keyAllowed := !scanner.inFlow }

/-- A token that may be a key, read by `read`. -/
def keyLike (scanner : Scanner) (read : Cursor → Except Fault (Token × Cursor)) :
    Except Fault Scanner := do
  let scanner ← scanner.saveKey
  let (token, after) ← read scanner.cursor
  return { scanner.push token with cursor := after, keyAllowed := false }

def quoted (double : Bool) (cursor : Cursor) : Except Fault (Token × Cursor) := do
  let (text, after) ← Scalar.readQuoted double (cursor.rest.length + 1) cursor.advance
  return (.scalar (Token.textOf text) false, after)

def plain (scanner : Scanner) : Except Fault Scanner := do
  let scanner ← scanner.saveKey
  let found := Scalar.readPlain scanner.inFlow (scanner.indent + 1) scanner.cursor
  return { scanner.push (.scalar (Token.textOf found.text) true) with
    cursor := found.after, keyAllowed := found.keyAllowed }

def block (folded : Bool) (scanner : Scanner) : Except Fault Scanner := do
  let scanner ← scanner.dropKey
  let (text, after) ← Scalar.readBlock folded scanner.indent scanner.cursor
  return { scanner.push (.scalar (Token.textOf text) false) with
    cursor := after, keyAllowed := true }

/-- Characters with which no plain scalar begins. -/
def indicators : List Char := "-?:,[]\x7b\x7d#&*!|>\x27\"%@\x60".toList

/-- Whether a plain scalar begins here. A hyphen, and outside brackets a question mark or colon, may
begin one if no gap follows. -/
def startsPlain (scanner : Scanner) (c : Char) : Bool :=
  !(isSpaceOrTab c || isBreak c || indicators.contains c) ||
    (!scanner.cursor.isGapAt 1 && (c == '-' || (!scanner.inFlow && (c == '?' || c == ':'))))

/-- Reads the token that begins with `c`. -/
def token (scanner : Scanner) (c : Char) : Except Fault Scanner :=
  let cursor := scanner.cursor
  let atStart := cursor.column = 0
  if c = '%' ∧ atStart then do
    let scanner ← scanner.atMargin
    let (token, after) ← Token.readDirective cursor
    return { scanner.push token with cursor := after }
  else if atStart ∧ cursor.isMarkedBy '-' then return (← scanner.atMargin).take 3 .documentStart
  else if atStart ∧ cursor.isMarkedBy '.' then return (← scanner.atMargin).take 3 .documentEnd
  else if c = '[' then scanner.openBracket .flowSequenceStart
  else if c = '\x7b' then scanner.openBracket .flowMappingStart
  else if c = ']' then scanner.closeBracket .flowSequenceEnd
  else if c = '\x7d' then scanner.closeBracket .flowMappingEnd
  else if c = ',' then scanner.flowEntry
  else if c = '-' ∧ cursor.isGapAt 1 then scanner.blockEntry
  else if c = '?' ∧ (scanner.inFlow ∨ cursor.isGapAt 1) then scanner.explicitKey
  else if c = ':' ∧ (scanner.inFlow ∨ cursor.isGapAt 1) then scanner.value
  else if c = '*' then scanner.keyLike (Token.readAnchor .alias)
  else if c = '&' then scanner.keyLike (Token.readAnchor .anchor)
  else if c = '!' then scanner.keyLike Token.readTag
  else if c = '|' ∧ ¬ scanner.inFlow then scanner.block false
  else if c = '>' ∧ ¬ scanner.inFlow then scanner.block true
  else if c = '\x27' then scanner.keyLike (quoted false)
  else if c = '\x22' then scanner.keyLike (quoted true)
  else if scanner.startsPlain c then scanner.plain
  else .error .strayCharacter

/-- How many of the tokens are settled: no token can come in front of them any more. -/
def settled (scanner : Scanner) : Nat :=
  scanner.possibleKeys.foldl (fun count entry =>
    if scanner.isStale entry.2 then count else min count entry.2.token) scanner.tokens.size

/-- Passes over gaps and closes the collections that end there. -/
def approach (scanner : Scanner) : Except Fault Scanner := do
  let scanner ← scanner.toNextToken.dropStaleKeys
  return scanner.unwindTo scanner.column

/-- Reads the next token, or the end of the text. -/
def step (scanner : Scanner) : Except Fault (Scanner × Bool) := do
  let next ← scanner.approach
  match next.cursor.current with
  | some c => return (← next.token c, false)
  | none => return ((← (next.unwindTo (-1)).dropKey).push .streamEnd, true)

/-- Reads tokens up to the end of the text or the first fault; every token takes a character at
least. -/
def run (fuel : Nat) (scanner : Scanner) : TokenStream :=
  match fuel with
  | 0 => ⟨scanner.tokens.toList, none⟩
  | fuel + 1 =>
      match scanner.step with
      | .error fault => ⟨scanner.tokens.toList.take scanner.settled, some fault⟩
      | .ok (next, true) => ⟨next.tokens.toList, none⟩
      | .ok (next, false) => run fuel next

end Scanner

/-- Whether a character may stand in a YAML text. -/
def isPrintable (c : Char) : Bool :=
  let n := c.toNat
  n == 0x09 || n == 0x0A || n == 0x0D || (0x20 ≤ n && n ≤ 0x7E) || n == 0x85 ||
    (0xA0 ≤ n && n ≤ 0xD7FF) || (0xE000 ≤ n && n ≤ 0xFFFD) || 0x10000 ≤ n

/-- The tokens of a text. -/
def TokenStream.ofText (text : List Char) : TokenStream :=
  if text.all isPrintable then Scanner.run (text.length + 2) (Scanner.start text)
  else ⟨[], some .unprintableCharacter⟩

end Mson.Yaml
