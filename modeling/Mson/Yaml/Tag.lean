import Mson.Text.Split
import Mson.Yaml.Timestamp
import Mson.Yaml.Token

/-!
# Tags

The tag of a node says which kind of value it denotes. A scalar whose tag is to be found from its
text has the tag of which the text is a written form, and is a string if there is none.
`Tag.ofText` finds it; a line end after the text does not count.
-/
namespace Mson.Yaml

inductive Tag where
  | null
  | bool
  | int
  | float
  | binary
  | timestamp
  | orderedMapping
  | pairs
  | set
  | string
  | sequence
  | mapping
  /-- The key under which a mapping takes over the entries of others. -/
  | merge
  /-- The key of a mapping's principal value. -/
  | value
  /-- A character that begins a tag, an anchor or an alias and stands alone; it denotes nothing. -/
  | indicator
  | other (name : String)
  deriving DecidableEq, Repr

namespace Tag

def standardNames : List (String × Tag) :=
  [("null", .null), ("bool", .bool), ("int", .int), ("float", .float), ("binary", .binary),
    ("timestamp", .timestamp), ("omap", .orderedMapping), ("pairs", .pairs), ("set", .set),
    ("str", .string), ("seq", .sequence), ("map", .mapping), ("merge", .merge), ("value", .value),
    ("yaml", .indicator)]

def ofName (name : String) : Tag :=
  match standardNames.find? fun entry => "tag:yaml.org,2002:" ++ entry.1 = name with
  | some (_, tag) => tag
  | none => .other name

/-! ## Written forms -/

def booleanWords : List (String × Bool) :=
  [("yes", true), ("no", false), ("true", true), ("false", false), ("on", true), ("off", false)]

/-- The same word in lower, title and upper case. -/
def spellings (word : String) : List String :=
  [word, word.capitalize, word.map Char.toUpper]

def isBooleanText (text : String) : Bool :=
  booleanWords.any fun entry => (spellings entry.1).contains text

def isNullText (text : String) : Bool := text = "~" || (spellings "null").contains text

/-- The text without a sign. -/
def unsigned : List Char → List Char
  | '+' :: rest => rest
  | '-' :: rest => rest
  | text => text

def isDigitOrMark (c : Char) : Bool := c.isDigit || c == '_'

def allOf (accept : Char → Bool) (text : List Char) : Bool := !text.isEmpty && text.all accept

def isOctalOrMark (c : Char) : Bool := ('0' ≤ c && c ≤ '7') || c == '_'

/-- A run of digits that begins with a digit other than zero. -/
def isPositiveRun : List Char → Bool
  | c :: rest => '1' ≤ c && c ≤ '9' && rest.all isDigitOrMark
  | [] => false

/-- Two digits of base sixty: a number below sixty with one digit or two. -/
def isSixtieth : List Char → Bool
  | [d] => d.isDigit
  | [t, d] => '0' ≤ t && t ≤ '5' && d.isDigit
  | _ => false

def splitColons (text : List Char) : List (List Char) := Text.splitAt ':' text

/-- A first part and at least one more below sixty. -/
def isBaseSixty (isFirst : List Char → Bool) (text : List Char) : Bool :=
  match splitColons text with
  | first :: second :: others => isFirst first && (second :: others).all isSixtieth
  | _ => false

def isIntText (text : String) : Bool :=
  let body := unsigned text.toList
  (match body with
    | '0' :: 'b' :: digits => allOf (fun c => c == '0' || c == '1' || c == '_') digits
    | '0' :: 'x' :: digits => allOf (fun c => Token.isHexDigit c || c == '_') digits
    | '0' :: digits => digits.all isOctalOrMark
    | _ => false) ||
  isPositiveRun body || isBaseSixty isPositiveRun body

def startsWithDigit (text : List Char) : Bool := text.head?.any Char.isDigit

/-- An exponent: nothing, or a letter, a sign and digits. -/
def isExponent : List Char → Bool
  | [] => true
  | mark :: sign :: digits =>
      (mark == 'e' || mark == 'E') && (sign == '+' || sign == '-') && allOf Char.isDigit digits
  | _ => false

/-- Digits of a fraction and an exponent. -/
def isFraction (text : List Char) : Bool := isExponent (text.dropWhile isDigitOrMark)

def isFloatText (text : String) : Bool :=
  let whole := text.toList
  let body := unsigned whole
  let front := body.takeWhile (· != '.')
  let back := body.drop (front.length + 1)
  let hasPoint := body.contains '.'
  (hasPoint && startsWithDigit front && front.all isDigitOrMark && isFraction back) ||
  (whole.head? == some '.' && startsWithDigit back && isFraction back) ||
  (hasPoint && isBaseSixty (fun first => startsWithDigit first && first.all isDigitOrMark) front &&
    back.all isDigitOrMark) ||
  (body.head? == some '.' && (spellings "inf").contains (String.ofList back)) ||
  text = ".nan" || text = ".NaN" || text = ".NAN"

/-- The tag of which a text that is not empty is a written form. -/
def ofWord (text : String) : Tag :=
  if isBooleanText text then .bool
  else if isFloatText text then .float
  else if isIntText text then .int
  else if text = "<<" then .merge
  else if isNullText text then .null
  else if Timestamp.isPlain text.toList then .timestamp
  else if text = "=" then .value
  else if text = "!" || text = "&" || text = "*" then .indicator
  else .string

/-- The text without the line end after it. -/
def dropLineEnd (text : List Char) : List Char :=
  if text.getLast? = some '\n' then text.dropLast else text

/-- The tag of a scalar whose tag is to be found from its text. No text at all denotes null. -/
def ofText (text : String) : Tag :=
  if text.isEmpty then .null else ofWord (String.ofList (dropLineEnd text.toList))

end Tag

end Mson.Yaml
