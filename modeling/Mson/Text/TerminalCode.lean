/-!
# Terminal codes

A text may hold control sequences, which a terminal obeys instead of showing them: an escape
character and a bracket, then parameter bytes, intermediate bytes and one final byte, as ECMA-48 has
them. What is written elsewhere than to a terminal is written without them. A sequence that is not
complete is text.
-/
namespace Mson.Text

def escapeCharacter : Char := '\x1b'

/-- A parameter byte: a digit, or one of `:;<=>?`. -/
def isParameterByte (c : Char) : Bool := '0' ≤ c && c ≤ '?'

/-- An intermediate byte: a space, or a sign before the digits. -/
def isIntermediateByte (c : Char) : Bool := ' ' ≤ c && c ≤ '/'

/-- A final byte: a letter, or a sign around the letters. -/
def isFinalByte (c : Char) : Bool := '@' ≤ c && c ≤ '~'

/-- The length of the control sequence that a text begins with; it is zero if there is none. -/
def sequenceLength : List Char → Nat
  | c :: '[' :: rest =>
      let parameters := (rest.takeWhile isParameterByte).length
      let intermediates := ((rest.drop parameters).takeWhile isIntermediateByte).length
      let length := parameters + intermediates
      if c = escapeCharacter ∧ rest[length]?.any isFinalByte then length + 3 else 0
  | _ => 0

/-- A text without its control sequences, after `skipped` characters that belong to one. -/
def dropSequences (skipped : Nat) : List Char → List Char
  | [] => []
  | c :: rest =>
      match skipped with
      | skipped + 1 => dropSequences skipped rest
      | 0 =>
          match sequenceLength (c :: rest) with
          | 0 => c :: dropSequences 0 rest
          | others + 1 => dropSequences others rest

def withoutTerminalCodes (text : String) : String := String.ofList (dropSequences 0 text.toList)

end Mson.Text
