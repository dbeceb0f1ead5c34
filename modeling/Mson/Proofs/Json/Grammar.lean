import Mson.Proofs.Json.Numeral

/-!
# The grammar of JSON

`IsText dialect text value` says that a text is a value of a dialect of JSON between blanks, and which
value it denotes. The grammar is that of the standard; a dialect fixes the words that are values and the
numerals that may be used. Of a name given twice in one object the last value counts.
-/
namespace Mson.Json

/-! ## Strings -/

/-- Whether the text between two quotes denotes given characters. An escaped surrogate that is not
part of a pair denotes U+FFFD. -/
inductive Spells : List Char → List Char → Prop
  | nil : Spells [] []
  | plain {c : Char} {body chars : List Char} (notQuote : c ≠ '\x22') (notBackslash : c ≠ '\\')
      (noControl : 0x20 ≤ c.toNat) (rest : Spells body chars) : Spells (c :: body) (c :: chars)
  | escape {c meant : Char} {body chars : List Char} (simple : simpleEscape? c = some meant)
      (rest : Spells body chars) : Spells ('\\' :: c :: body) (meant :: chars)
  | unit {a b c d : Char} {unit : Nat} {body chars : List Char} (isUnit : codeUnit? a b c d = some unit)
      (alone : isHighSurrogate unit = true → ∀ e f g h rest low,
        body = '\\' :: 'u' :: e :: f :: g :: h :: rest → codeUnit? e f g h = some low →
          isLowSurrogate low = false)
      (rest : Spells body chars) :
      Spells ('\\' :: 'u' :: a :: b :: c :: d :: body) (unitChar unit :: chars)
  | pair {a b c d e f g h : Char} {high low : Nat} {body chars : List Char}
      (isHigh : codeUnit? a b c d = some high) (high_ : isHighSurrogate high = true)
      (isLow : codeUnit? e f g h = some low) (low_ : isLowSurrogate low = true)
      (rest : Spells body chars) :
      Spells ('\\' :: 'u' :: a :: b :: c :: d :: '\\' :: 'u' :: e :: f :: g :: h :: body)
        (joinSurrogates high low :: chars)

/-- A text between quotes. -/
def quoted (body : List Char) : List Char := '\x22' :: (body ++ ['\x22'])

/-! ## Blanks -/

def AllBlank (text : List Char) : Prop := ∀ c ∈ text, isBlank c = true

/-- Whether a text is another one between blanks. -/
def Padded (inner text : List Char) : Prop :=
  ∃ before after, AllBlank before ∧ AllBlank after ∧ text = before ++ (inner ++ after)

/-! ## Values -/

/-- The words of standard JSON. -/
def standardWords : List (String × Json) :=
  [("null", .null), ("true", .bool true), ("false", .bool false)]

/-- The words and numerals of a dialect, which has the words of standard JSON and none that the reader
does not know. -/
structure Dialect where
  words : List (String × Json)
  hasStandard : ∀ word ∈ standardWords, word ∈ words
  known : ∀ word ∈ words, word ∈ Json.words
  Accepts : Numeral → Prop

/-- What a piece of text can be: a value, what stands between the brackets of an array that has items,
or what stands between the braces of an object that has entries. -/
inductive Phrase where
  | value (value : Json)
  | items (items : List Json)
  | entries (entries : List (String × Json))

inductive Derives (dialect : Dialect) : Phrase → List Char → Prop
  | word {name : String} {value : Json} (known : (name, value) ∈ dialect.words) :
      Derives dialect (.value value) name.toList
  | number {numeral : Numeral} (valid : numeral.Valid) (accepted : dialect.Accepts numeral) :
      Derives dialect (.value numeral.value) numeral.text
  | string {body chars : List Char} (spells : Spells body chars) :
      Derives dialect (.value (.string (String.ofList chars))) (quoted body)
  | emptyArray {blanks : List Char} (blank : AllBlank blanks) :
      Derives dialect (.value (.array [])) ('[' :: (blanks ++ [']']))
  | array {items : List Json} {text : List Char} (inner : Derives dialect (.items items) text) :
      Derives dialect (.value (.array items)) ('[' :: (text ++ [']']))
  | emptyObject {blanks : List Char} (blank : AllBlank blanks) :
      Derives dialect (.value (.object [])) ('\x7b' :: (blanks ++ ['\x7d']))
  | object {entries : List (String × Json)} {text : List Char}
      (inner : Derives dialect (.entries entries) text) :
      Derives dialect (.value (.object (Mapping.ofEntries entries))) ('\x7b' :: (text ++ ['\x7d']))
  | lastItem {item : Json} {inner text : List Char} (first : Derives dialect (.value item) inner)
      (padded : Padded inner text) : Derives dialect (.items [item]) text
  | item {item : Json} {items : List Json} {inner text rest : List Char}
      (first : Derives dialect (.value item) inner) (padded : Padded inner text)
      (others : Derives dialect (.items items) rest) :
      Derives dialect (.items (item :: items)) (text ++ ',' :: rest)
  | lastEntry {body chars name : List Char} {value : Json} {inner text : List Char}
      (spells : Spells body chars) (named : Padded (quoted body) name)
      (first : Derives dialect (.value value) inner) (padded : Padded inner text) :
      Derives dialect (.entries [(String.ofList chars, value)]) (name ++ ':' :: text)
  | entry {body chars name : List Char} {value : Json} {entries : List (String × Json)}
      {inner text rest : List Char} (spells : Spells body chars) (named : Padded (quoted body) name)
      (first : Derives dialect (.value value) inner) (padded : Padded inner text)
      (others : Derives dialect (.entries entries) rest) :
      Derives dialect (.entries ((String.ofList chars, value) :: entries))
        (name ++ ':' :: (text ++ ',' :: rest))

/-- Whether a text denotes a value in a dialect. -/
def IsText (dialect : Dialect) (text : List Char) (value : Json) : Prop :=
  ∃ inner, Derives dialect (.value value) inner ∧ Padded inner text

/-! ## Dialects -/

namespace Dialect

theorem mem_words_of_standard : ∀ word ∈ standardWords, word ∈ Json.words := by
  simp [standardWords, Json.words]

/-- JSON as its standard has it: three words, and numerals of any length. -/
def standard : Dialect := ⟨standardWords, fun _ known => known, mem_words_of_standard, fun _ => True⟩

/-- What the reader takes: all its words, and no integer that is too long. -/
def readable : Dialect :=
  ⟨Json.words, mem_words_of_standard, fun _ known => known, fun numeral => numeral.isTooLong = false⟩

end Dialect

end Mson.Json
