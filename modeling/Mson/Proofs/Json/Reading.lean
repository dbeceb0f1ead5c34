import Mson.Proofs.Computation
import Mson.Proofs.Json.Grammar

/-!
# Reading derived texts

The reader follows the grammar: a text of a dialect is read as the value that it denotes, unless an
integer in it is too long (`IsText.reads`). There is one lemma for each rule of the grammar; a piece of
text is read with any fuel of twice its length, and before anything that can follow it.
-/
namespace Mson.Json

/-! ## Strings -/

section Strings

variable {opening : Nat} {built body chars rest : List Char}

/-- A code unit before the escape of another one: the two are read as a pair if they are one. -/
theorem readString_units (opening : Nat) (built : List Char) (a b c d e f g h next : Char)
    (rest : List Char) :
    readString opening built
        ('\\' :: 'u' :: a :: b :: c :: d :: '\\' :: 'u' :: e :: f :: g :: h :: next :: rest) =
      match codeUnit? a b c d with
      | none => .error ⟨.invalidUnicodeEscape, rest.length + 12⟩
      | some unit =>
          if isHighSurrogate unit then
            match codeUnit? e f g h with
            | none => .error ⟨.invalidUnicodeEscape, rest.length + 6⟩
            | some low =>
                if isLowSurrogate low then
                  readString opening (joinSurrogates unit low :: built) (next :: rest)
                else
                  readString opening (unitChar unit :: built)
                    ('\\' :: 'u' :: e :: f :: g :: h :: next :: rest)
          else
            readString opening (unitChar unit :: built)
              ('\\' :: 'u' :: e :: f :: g :: h :: next :: rest) := rfl

/-- A code unit that is no part of a pair is read on its own. -/
theorem readString_unit {a b c d : Char} {unit : Nat} {text : List Char}
    (isUnit : codeUnit? a b c d = some unit) (follows : text ≠ [])
    (alone : isHighSurrogate unit = true → ∀ e f g h rest,
      text = '\\' :: 'u' :: e :: f :: g :: h :: rest →
        ∃ low, codeUnit? e f g h = some low ∧ isLowSurrogate low = false) :
    readString opening built ('\\' :: 'u' :: a :: b :: c :: d :: text) =
      readString opening (unitChar unit :: built) text := by
  obtain ⟨next, others, rfl⟩ := List.exists_cons_of_ne_nil follows
  by_cases escaped : ∃ e f g h after rest,
      next :: others = '\\' :: 'u' :: e :: f :: g :: h :: after :: rest
  · obtain ⟨e, f, g, h, after, rest, same⟩ := escaped
    rw [same, readString_units, isUnit]
    dsimp only
    split
    · rename_i high
      obtain ⟨low, isLow, notLow⟩ := alone high _ _ _ _ _ same
      simp [isLow, notLow]
    · rfl
  · rw [readString.eq_3 _ _ _ _ _ _ _ _ fun e f g h after rest first then_ =>
      escaped ⟨e, f, g, h, after, rest, by rw [first, then_]⟩, isUnit]

theorem readString_pair {a b c d e f g h : Char} {high low : Nat} {text : List Char}
    (isHigh : codeUnit? a b c d = some high) (high_ : isHighSurrogate high = true)
    (isLow : codeUnit? e f g h = some low) (low_ : isLowSurrogate low = true) (follows : text ≠ []) :
    readString opening built
        ('\\' :: 'u' :: a :: b :: c :: d :: '\\' :: 'u' :: e :: f :: g :: h :: text) =
      readString opening (joinSurrogates high low :: built) text := by
  obtain ⟨next, others, rfl⟩ := List.exists_cons_of_ne_nil follows
  rw [readString_units, isHigh]
  simp [high_, isLow, low_]

theorem readString_escape {c meant : Char} {text : List Char}
    (simple : simpleEscape? c = some meant) :
    readString opening built ('\\' :: c :: text) = readString opening (meant :: built) text := by
  have notUnit : c ≠ 'u' := by
    rintro rfl
    cases simple
  rw [readString.eq_5 _ _ _ _ (fun _ _ _ _ _ _ _ _ _ _ same => absurd same notUnit)
    (fun _ _ _ _ _ _ same => absurd same notUnit) notUnit, simple]

theorem readString_plain {c : Char} {text : List Char} (notBackslash : c ≠ '\\') :
    readString opening built (c :: text) =
      if c = '\x22' then .ok (String.ofList built.reverse, text)
      else if c.toNat < 0x20 then .error ⟨.invalidControlCharacter, text.length + 1⟩
      else readString opening (c :: built) text :=
  readString.eq_7 _ _ _ _ (fun _ _ _ _ _ _ _ _ _ _ same => absurd same notBackslash)
    (fun _ _ _ _ _ _ same => absurd same notBackslash) (fun _ same => absurd same notBackslash)
    (fun _ _ same => absurd same notBackslash) (fun same => absurd same notBackslash)

/-- What begins with a code unit goes on with a whole one. -/
theorem Spells.unit_of_append (spells : Spells body chars) {e f g h : Char} {tail : List Char}
    (same : body ++ '\x22' :: rest = '\\' :: 'u' :: e :: f :: g :: h :: tail) :
    ∃ others low, body = '\\' :: 'u' :: e :: f :: g :: h :: others ∧ codeUnit? e f g h = some low := by
  cases spells with
  | nil => cases same
  | plain _ notBackslash _ _ => exact absurd (List.cons.inj same).1 notBackslash
  | escape simple _ =>
    obtain ⟨-, same⟩ := List.cons.inj same
    rw [(List.cons.inj same).1] at simple
    cases simple
  | unit isUnit _ _ =>
    cases same
    exact ⟨_, _, rfl, isUnit⟩
  | pair isHigh _ _ _ _ =>
    cases same
    exact ⟨_, _, rfl, isHigh⟩

/-- A string is read up to its closing quote. -/
theorem readString_spells (spells : Spells body chars) :
    readString opening built (body ++ '\x22' :: rest) =
      .ok (String.ofList (built.reverse ++ chars), rest) := by
  have follows : ∀ body : List Char, body ++ '\x22' :: rest ≠ [] := fun _ =>
    List.append_ne_nil_of_right_ne_nil _ (List.cons_ne_nil _ _)
  induction spells generalizing built with
  | nil =>
    rw [List.nil_append, readString_plain (by decide), if_pos rfl, List.append_nil]
  | plain notQuote notBackslash noControl _ ih =>
    rw [List.cons_append, readString_plain notBackslash, if_neg notQuote,
      if_neg (Nat.not_lt.mpr noControl), ih, List.reverse_cons, List.append_assoc]
    rfl
  | escape simple _ ih =>
    rw [List.cons_append, List.cons_append, readString_escape simple, ih, List.reverse_cons,
      List.append_assoc]
    rfl
  | @unit a b c d unit body chars isUnit alone spells ih =>
    simp only [List.cons_append]
    rw [readString_unit isUnit (follows body), ih, List.reverse_cons, List.append_assoc]
    · rfl
    · intro high e f g h rest same
      obtain ⟨others, low, given, isLow⟩ := spells.unit_of_append same
      exact ⟨low, isLow, alone high e f g h others low given isLow⟩
  | @pair a b c d e f g h high low body chars isHigh high_ isLow low_ spells ih =>
    simp only [List.cons_append]
    rw [readString_pair isHigh high_ isLow low_ (follows body), ih, List.reverse_cons,
      List.append_assoc]
    rfl

end Strings

/-! ## Blanks -/

section Blanks

variable {inner text blanks rest : List Char}

theorem skipBlanks_append (blank : AllBlank blanks) (rest : List Char) :
    skipBlanks (blanks ++ rest) = skipBlanks rest := by
  induction blanks with
  | nil => rfl
  | cons c blanks ih =>
    obtain ⟨first, others⟩ := List.forall_mem_cons.mp blank
    exact (if_pos first).trans (ih others)

theorem skipBlanks_cons {c : Char} (notBlank : isBlank c = false) (rest : List Char) :
    skipBlanks (c :: rest) = c :: rest := if_neg (ne_true_of_eq_false notBlank)

/-- Whether a text begins as a value or a name does: with nothing that may stand before one or in its
place. -/
def Starts (text : List Char) : Prop :=
  ∃ c rest, text = c :: rest ∧ isBlank c = false ∧ c ≠ ']' ∧ c ≠ '\x7d' ∧ c ≠ '\uFEFF'

theorem Starts.skipBlanks (starts : Starts text) (rest : List Char) :
    skipBlanks (text ++ rest) = text ++ rest := by
  obtain ⟨c, others, rfl, notBlank, -⟩ := starts
  exact skipBlanks_cons notBlank _

theorem starts_quoted (body : List Char) : Starts (quoted body) :=
  ⟨'\x22', _, rfl, rfl, by decide, by decide, by decide⟩

theorem starts_bracket (text : List Char) : Starts ('[' :: text) :=
  ⟨'[', text, rfl, rfl, by decide, by decide, by decide⟩

theorem starts_brace (text : List Char) : Starts ('\x7b' :: text) :=
  ⟨'\x7b', text, rfl, rfl, by decide, by decide, by decide⟩

theorem Padded.skip (padded : Padded inner text) (starts : Starts inner) :
    ∃ after, AllBlank after ∧ inner.length ≤ text.length ∧
      ∀ rest, Json.skipBlanks (text ++ rest) = inner ++ (after ++ rest) := by
  obtain ⟨before, after, blankBefore, blankAfter, rfl⟩ := padded
  refine ⟨after, blankAfter, by simp only [List.length_append]; omega, fun rest => ?_⟩
  rw [List.append_assoc, List.append_assoc, skipBlanks_append blankBefore, starts.skipBlanks]

theorem ends_comma : Ends (',' :: rest) := Or.inr (Or.inl rfl)

theorem ends_bracket : Ends (']' :: rest) := Or.inr (Or.inr (Or.inl rfl))

theorem ends_brace : Ends ('\x7d' :: rest) := Or.inr (Or.inr (Or.inr rfl))

theorem AllBlank.ends (blank : AllBlank blanks) (ends : Ends rest) : Ends (blanks ++ rest) := by
  cases blanks with
  | nil => exact ends
  | cons c blanks => exact Or.inl (blank c List.mem_cons_self)

end Blanks

/-! ## Values -/

section Equations

variable (fuel : Nat) (text : List Char)

/-! What the reader does with a value, with items and with entries, by the character with which they
begin. -/

theorem readValue_quote : readValue (fuel + 1) ('\x22' :: text) = (do
    let (value, rest) ← readString (text.length + 1) [] text
    return (.string value, rest)) := rfl

theorem readValue_bracket : readValue (fuel + 1) ('[' :: text) =
    match skipBlanks text with
    | ']' :: rest => .ok (.array [], rest)
    | rest => do
        let (items, rest) ← readItems fuel rest
        return (.array items, rest) := rfl

theorem readValue_brace : readValue (fuel + 1) ('\x7b' :: text) =
    match skipBlanks text with
    | '\x7d' :: rest => .ok (.object [], rest)
    | rest => do
        let (entries, rest) ← readEntries fuel rest
        return (.object (Mapping.ofEntries entries), rest) := rfl

theorem readItems_succ : readItems (fuel + 1) text = (do
    let (item, rest) ← readValue fuel text
    match skipBlanks rest with
    | ']' :: rest => return ([item], rest)
    | ',' :: rest => do
        let (items, rest) ← readItems fuel (skipBlanks rest)
        return (item :: items, rest)
    | rest => .error ⟨.expectingComma, rest.length⟩) := rfl

theorem readEntries_quote : readEntries (fuel + 1) ('\x22' :: text) = (do
    let (name, rest) ← readString (text.length + 1) [] text
    match skipBlanks rest with
    | ':' :: rest => do
        let (value, rest) ← readValue fuel (skipBlanks rest)
        match skipBlanks rest with
        | '\x7d' :: rest => return ([(name, value)], rest)
        | ',' :: rest => do
            let (entries, rest) ← readEntries fuel (skipBlanks rest)
            return ((name, value) :: entries, rest)
        | rest => .error ⟨.expectingComma, rest.length⟩
    | rest => .error ⟨.expectingColon, rest.length⟩) := rfl

/-- What begins with no quote, bracket or brace is a word or a number. -/
theorem readValue_scalar {text : List Char}
    (plain : ∀ rest, text ≠ '\x22' :: rest ∧ text ≠ '[' :: rest ∧ text ≠ '\x7b' :: rest) :
    readValue (fuel + 1) text = readScalar text :=
  readValue.eq_5 text fuel (fun rest => (plain rest).1) (fun rest => (plain rest).2.1)
    fun rest => (plain rest).2.2

end Equations

theorem ne_of_isDigit {digit other : Char} (isDigit_ : isDigit digit = true)
    (notDigit : isDigit other = false) : digit ≠ other := by
  rintro rfl
  rw [isDigit_] at notDigit
  cases notDigit

theorem Numeral.Valid.exists_digit {numeral : Numeral} (valid : numeral.Valid) :
    ∃ digit rest, numeral.whole = digit :: rest ∧ isDigit digit = true := by
  rcases valid.leading with zero | ⟨digit, rest, isFirst, -⟩
  · exact ⟨'0', [], zero, rfl⟩
  · exact ⟨digit, rest, isFirst, valid.whole digit (isFirst ▸ List.mem_cons_self)⟩

theorem words_start : ∀ word ∈ words, Starts word.1.toList := by
  have first : ∀ word ∈ words, ∃ c rest, word.1.toList = c :: rest ∧ isBlank c = false ∧
      c ≠ ']' ∧ c ≠ '\x7d' ∧ c ≠ '\uFEFF' := by
    simp [words]; decide
  exact first

theorem Numeral.Valid.starts {numeral : Numeral} (valid : numeral.Valid) : Starts numeral.text := by
  obtain ⟨digit, rest, isFirst, isDigit_⟩ := valid.exists_digit
  unfold Numeral.text
  cases numeral.negative with
  | true => exact ⟨'-', _, rfl, rfl, by decide, by decide, by decide⟩
  | false =>
    refine ⟨digit, rest ++ numeral.tail, by simp [isFirst], ?_, ne_of_isDigit isDigit_ rfl,
      ne_of_isDigit isDigit_ rfl, ne_of_isDigit isDigit_ rfl⟩
    have noBlank : ∀ blank, isDigit blank = false → (digit == blank) = false := fun _ notDigit =>
      beq_eq_false_iff_ne.mpr (ne_of_isDigit isDigit_ notDigit)
    rw [isBlank, noBlank _ rfl, noBlank _ rfl, noBlank _ rfl, noBlank _ rfl]
    rfl

theorem afterWord?_of_ne {first c : Char} (different : first ≠ c) (word text : List Char) :
    afterWord? (first :: word) (c :: text) = none := if_neg different

/-- No word is the beginning of a numeral. -/
theorem afterWord?_digit {digit : Char} (isDigit_ : isDigit digit = true) (text : List Char) :
    ∀ word ∈ words, afterWord? word.1.toList (digit :: text) = none ∧
      afterWord? word.1.toList ('-' :: digit :: text) = none := by
  have other : ∀ {c}, isDigit c = false → c ≠ digit := fun notDigit =>
    (ne_of_isDigit isDigit_ notDigit).symm
  intro word known
  simp only [words, List.mem_cons, List.not_mem_nil, or_false] at known
  rcases known with rfl | rfl | rfl | rfl | rfl | rfl
  · exact ⟨afterWord?_of_ne (other rfl) _ _, rfl⟩
  · exact ⟨afterWord?_of_ne (other rfl) _ _, rfl⟩
  · exact ⟨afterWord?_of_ne (other rfl) _ _, rfl⟩
  · exact ⟨afterWord?_of_ne (other rfl) _ _, rfl⟩
  · exact ⟨afterWord?_of_ne (other rfl) _ _, rfl⟩
  · exact ⟨afterWord?_of_ne (other rfl) _ _, afterWord?_of_ne (other rfl) _ _⟩

theorem readScalar_numeral {numeral : Numeral} (valid : numeral.Valid) (rest : List Char) :
    readScalar (numeral.text ++ rest) = readNumber (numeral.text ++ rest) := by
  obtain ⟨digit, others, isFirst, isDigit_⟩ := valid.exists_digit
  have noWord : words.findSome? (fun word => (afterWord? word.1.toList (numeral.text ++ rest)).map
      fun rest => (word.2, rest)) = none := by
    rw [List.findSome?_eq_none_iff]
    intro word known
    have none_ := afterWord?_digit isDigit_ (others ++ (numeral.tail ++ rest)) word known
    unfold Numeral.text
    cases numeral.negative with
    | true => simp [isFirst, none_.2]
    | false => simp [isFirst, none_.1]
  rw [readScalar, noWord]

theorem readScalar_word {name : String} {value : Json} (known : (name, value) ∈ words)
    (rest : List Char) : readScalar (name.toList ++ rest) = .ok (value, rest) := by
  simp only [words, List.mem_cons, List.not_mem_nil, or_false, Prod.mk.injEq] at known
  rcases known with ⟨rfl, rfl⟩ | ⟨rfl, rfl⟩ | ⟨rfl, rfl⟩ | ⟨rfl, rfl⟩ | ⟨rfl, rfl⟩ | ⟨rfl, rfl⟩ <;> rfl

theorem readValue_word {fuel : Nat} {name : String} {value : Json} (known : (name, value) ∈ words)
    (rest : List Char) : readValue (fuel + 1) (name.toList ++ rest) = .ok (value, rest) := by
  rw [← readScalar_word known]
  simp only [words, List.mem_cons, List.not_mem_nil, or_false, Prod.mk.injEq] at known
  rcases known with ⟨rfl, rfl⟩ | ⟨rfl, rfl⟩ | ⟨rfl, rfl⟩ | ⟨rfl, rfl⟩ | ⟨rfl, rfl⟩ | ⟨rfl, rfl⟩ <;>
    rfl

theorem readValue_numeral {fuel : Nat} {numeral : Numeral} (valid : numeral.Valid)
    (rest : List Char) :
    readValue (fuel + 1) (numeral.text ++ rest) = readNumber (numeral.text ++ rest) := by
  obtain ⟨digit, others, isFirst, isDigit_⟩ := valid.exists_digit
  rw [← readScalar_numeral valid]
  apply readValue_scalar
  unfold Numeral.text
  cases numeral.negative with
  | true => exact fun _ => ⟨by simp, by simp, by simp⟩
  | false =>
    have other : ∀ {mark text}, isDigit mark = false →
        numeral.whole ++ numeral.tail ++ rest ≠ mark :: text := by
      intro mark text notDigit same
      rw [isFirst] at same
      exact ne_of_isDigit isDigit_ notDigit (List.cons.inj same).1
    exact fun _ => ⟨other rfl, other rfl, other rfl⟩

theorem readValue_array {fuel : Nat} {text : List Char} (starts : Starts (skipBlanks text)) :
    readValue (fuel + 1) ('[' :: text) = do
      let (items, rest) ← readItems fuel (skipBlanks text)
      return (.array items, rest) := by
  obtain ⟨c, others, same, -, notBracket, -⟩ := starts
  rw [readValue_bracket, same]
  split
  · rename_i first
    exact absurd (List.cons.inj first).1 notBracket
  · rfl

theorem readValue_object {fuel : Nat} {text : List Char} (starts : Starts (skipBlanks text)) :
    readValue (fuel + 1) ('\x7b' :: text) = do
      let (entries, rest) ← readEntries fuel (skipBlanks text)
      return (.object (Mapping.ofEntries entries), rest) := by
  obtain ⟨c, others, same, -, -, notBrace, -⟩ := starts
  rw [readValue_brace, same]
  split
  · rename_i first
    exact absurd (List.cons.inj first).1 notBrace
  · rfl

/-- A numeral that is the whole of a text is read as the number that it denotes. -/
theorem readChars_numeral {numeral : Numeral} (valid : numeral.Valid) :
    readChars numeral.text =
      if numeral.isTooLong then
        .error ⟨.tooManyDigits numeral.whole.length, numeral.text.length⟩
      else .ok numeral.value := by
  have starts := valid.starts
  have whole := starts.skipBlanks []
  have number := Numeral.readNumber_text valid (show Ends [] from trivial)
  rw [← readValue_numeral valid [], List.append_nil] at number
  rw [List.append_nil] at whole
  unfold readChars
  split
  · rename_i marked
    obtain ⟨c, others, isFirst, -, -, -, noMark⟩ := starts
    exact absurd (List.cons.inj (isFirst.symm.trans marked)).1 noMark
  · rw [whole, number]
    cases numeral.isTooLong <;> rfl

/-! ## Derived texts -/

section Derives

variable {α β : Type} {dialect : Dialect}

/-- Whether a reading comes to a result, or fails for a number that is too long if the dialect has
such numbers. -/
def Comes (dialect : Dialect) (reading : Except Fault α) (result : α) : Prop :=
  reading = .ok result ∨
    (∃ numeral, dialect.Accepts numeral ∧ numeral.isTooLong = true) ∧
      ∃ fault, reading = .error fault ∧ fault.cause.isGrammatical = false

theorem Comes.bind {reading : Except Fault α} {next : α → Except Fault β} {first : α} {result : β}
    (comes : Comes dialect reading first) (then_ : Comes dialect (next first) result) :
    Comes dialect (reading >>= next) result := by
  rcases comes with rfl | ⟨long, fault, rfl, isLong⟩
  · exact then_
  · exact .inr ⟨long, fault, rfl, isLong⟩

/-- What reading makes of a piece of text, given enough fuel. -/
def Reads (dialect : Dialect) : Phrase → List Char → Prop
  | .value value, text => Starts text ∧ ∀ fuel rest, 2 * text.length ≤ fuel → Ends rest →
      Comes dialect (readValue fuel (text ++ rest)) (value, rest)
  | .items items, text => (∀ rest, Starts (skipBlanks (text ++ rest))) ∧
      ∀ fuel rest, 2 * text.length < fuel →
        Comes dialect (readItems fuel (skipBlanks (text ++ ']' :: rest))) (items, rest)
  | .entries entries, text => (∀ rest, Starts (skipBlanks (text ++ rest))) ∧
      ∀ fuel rest, 2 * text.length < fuel →
        Comes dialect (readEntries fuel (skipBlanks (text ++ '\x7d' :: rest))) (entries, rest)

theorem Starts.append {text : List Char} (starts : Starts text) (rest : List Char) :
    Starts (text ++ rest) := by
  obtain ⟨c, others, rfl, starts⟩ := starts
  exact ⟨c, others ++ rest, rfl, starts⟩

theorem Starts.exists_fuel {text : List Char} (starts : Starts text) {fuel : Nat}
    (enough : 2 * text.length ≤ fuel) : ∃ less, fuel = less + 1 := by
  obtain ⟨c, others, rfl, -⟩ := starts
  rw [List.length_cons] at enough
  exact Nat.exists_eq_add_one_of_ne_zero (by omega)

/-! One lemma for each rule of the grammar. -/

theorem reads_word {name : String} {value : Json} (known : (name, value) ∈ dialect.words) :
    Reads dialect (.value value) name.toList := by
  have starts := words_start _ (dialect.known _ known)
  refine ⟨starts, fun fuel rest enough _ => ?_⟩
  obtain ⟨less, rfl⟩ := starts.exists_fuel enough
  exact .inl (readValue_word (dialect.known _ known) rest)

theorem reads_number {numeral : Numeral} (valid : numeral.Valid) (accepted : dialect.Accepts numeral) :
    Reads dialect (.value numeral.value) numeral.text := by
  refine ⟨valid.starts, fun fuel rest enough ends => ?_⟩
  obtain ⟨less, rfl⟩ := valid.starts.exists_fuel enough
  rw [readValue_numeral valid, Numeral.readNumber_text valid ends]
  cases long : numeral.isTooLong with
  | true => exact .inr ⟨⟨numeral, accepted, long⟩, _, rfl, rfl⟩
  | false => exact .inl rfl

theorem reads_string {body chars : List Char} (spells : Spells body chars) :
    Reads dialect (.value (.string (String.ofList chars))) (quoted body) := by
  refine ⟨starts_quoted body, fun fuel rest enough _ => .inl ?_⟩
  obtain ⟨less, rfl⟩ := (starts_quoted body).exists_fuel enough
  simp only [quoted, List.cons_append, List.append_assoc, List.nil_append]
  rw [readValue_quote, readString_spells spells]
  rfl

theorem reads_emptyArray {blanks : List Char} (blank : AllBlank blanks) :
    Reads dialect (.value (.array [])) ('[' :: (blanks ++ [']'])) := by
  have starts := starts_bracket (blanks ++ [']'])
  refine ⟨starts, fun fuel rest enough _ => .inl ?_⟩
  obtain ⟨less, rfl⟩ := starts.exists_fuel enough
  simp only [List.cons_append, List.append_assoc, List.nil_append]
  rw [readValue_bracket, skipBlanks_append blank, skipBlanks_cons rfl]
  rfl

theorem reads_emptyObject {blanks : List Char} (blank : AllBlank blanks) :
    Reads dialect (.value (.object [])) ('\x7b' :: (blanks ++ ['\x7d'])) := by
  have starts := starts_brace (blanks ++ ['\x7d'])
  refine ⟨starts, fun fuel rest enough _ => .inl ?_⟩
  obtain ⟨less, rfl⟩ := starts.exists_fuel enough
  simp only [List.cons_append, List.append_assoc, List.nil_append]
  rw [readValue_brace, skipBlanks_append blank, skipBlanks_cons rfl]
  rfl

theorem reads_array {items : List Json} {text : List Char} (reads : Reads dialect (.items items) text) :
    Reads dialect (.value (.array items)) ('[' :: (text ++ [']'])) := by
  have starts := starts_bracket (text ++ [']'])
  refine ⟨starts, fun fuel rest enough _ => ?_⟩
  obtain ⟨less, rfl⟩ := starts.exists_fuel enough
  simp only [List.length_cons, List.length_append, List.length_nil] at enough
  simp only [List.cons_append, List.append_assoc, List.nil_append]
  rw [readValue_array (reads.1 _)]
  exact (reads.2 less rest (by omega)).bind (.inl rfl)

theorem reads_object {entries : List (String × Json)} {text : List Char}
    (reads : Reads dialect (.entries entries) text) :
    Reads dialect (.value (.object (Mapping.ofEntries entries))) ('\x7b' :: (text ++ ['\x7d'])) := by
  have starts := starts_brace (text ++ ['\x7d'])
  refine ⟨starts, fun fuel rest enough _ => ?_⟩
  obtain ⟨less, rfl⟩ := starts.exists_fuel enough
  simp only [List.length_cons, List.length_append, List.length_nil] at enough
  simp only [List.cons_append, List.append_assoc, List.nil_append]
  rw [readValue_object (reads.1 _)]
  exact (reads.2 less rest (by omega)).bind (.inl rfl)

section Items

variable {item : Json} {inner text : List Char} (first : Reads dialect (.value item) inner)
  (padded : Padded inner text)

include first padded

theorem reads_lastItem : Reads dialect (.items [item]) text := by
  obtain ⟨after, blank, shorter, skip⟩ := padded.skip first.1
  refine ⟨fun rest => ?_, fun fuel rest enough => ?_⟩
  · rw [skip]
    exact first.1.append _
  · obtain ⟨less, rfl⟩ := Nat.exists_eq_add_one_of_ne_zero (show fuel ≠ 0 by omega)
    rw [skip, readItems_succ]
    refine (first.2 less _ (by omega) (blank.ends ends_bracket)).bind ?_
    dsimp only
    rw [skipBlanks_append blank, skipBlanks_cons rfl]
    exact .inl rfl

theorem reads_item {items : List Json} {rest : List Char}
    (others : Reads dialect (.items items) rest) :
    Reads dialect (.items (item :: items)) (text ++ ',' :: rest) := by
  obtain ⟨after, blank, shorter, skip⟩ := padded.skip first.1
  refine ⟨fun further => ?_, fun fuel further enough => ?_⟩
  · rw [List.append_assoc, skip]
    exact first.1.append _
  · simp only [List.length_append, List.length_cons] at enough
    obtain ⟨less, rfl⟩ := Nat.exists_eq_add_one_of_ne_zero (show fuel ≠ 0 by omega)
    rw [List.append_assoc, List.cons_append, skip, readItems_succ]
    refine (first.2 less _ (by omega) (blank.ends ends_comma)).bind ?_
    dsimp only
    rw [skipBlanks_append blank, skipBlanks_cons rfl]
    exact (others.2 less further (by omega)).bind (.inl rfl)

end Items

section Entries

variable {body chars name : List Char} (spells : Spells body chars)
  (named : Padded (quoted body) name)

include spells named

/-- A name is read with the colon after it. -/
theorem readEntries_name (less : Nat) (text : List Char) :
    readEntries (less + 1) (skipBlanks (name ++ ':' :: text)) = (do
      let (value, rest) ← readValue less (skipBlanks text)
      match skipBlanks rest with
      | '\x7d' :: rest => return ([(String.ofList chars, value)], rest)
      | ',' :: rest => do
          let (entries, rest) ← readEntries less (skipBlanks rest)
          return ((String.ofList chars, value) :: entries, rest)
      | rest => .error ⟨.expectingComma, rest.length⟩) := by
  obtain ⟨after, blank, -, skip⟩ := named.skip (starts_quoted body)
  rw [skip]
  simp only [quoted, List.cons_append, List.append_assoc, List.nil_append]
  rw [readEntries_quote, readString_spells spells]
  dsimp only [bind, Except.bind]
  rw [skipBlanks_append blank, skipBlanks_cons rfl]
  rfl

omit spells in
theorem starts_name (rest : List Char) : Starts (skipBlanks (name ++ rest)) := by
  obtain ⟨after, -, -, skip⟩ := named.skip (starts_quoted body)
  rw [skip]
  exact (starts_quoted body).append _

variable {value : Json} {inner text : List Char} (first : Reads dialect (.value value) inner)
  (padded : Padded inner text)

include first padded

theorem reads_lastEntry :
    Reads dialect (.entries [(String.ofList chars, value)]) (name ++ ':' :: text) := by
  obtain ⟨after, blank, shorter, skip⟩ := padded.skip first.1
  refine ⟨fun rest => ?_, fun fuel rest enough => ?_⟩
  · rw [List.append_assoc]
    exact starts_name named _
  · simp only [List.length_append, List.length_cons] at enough
    obtain ⟨less, rfl⟩ := Nat.exists_eq_add_one_of_ne_zero (show fuel ≠ 0 by omega)
    rw [List.append_assoc, List.cons_append, readEntries_name spells named, skip]
    refine (first.2 less _ (by omega) (blank.ends ends_brace)).bind ?_
    dsimp only
    rw [skipBlanks_append blank, skipBlanks_cons rfl]
    exact .inl rfl

theorem reads_entry {entries : List (String × Json)} {rest : List Char}
    (others : Reads dialect (.entries entries) rest) :
    Reads dialect (.entries ((String.ofList chars, value) :: entries))
      (name ++ ':' :: (text ++ ',' :: rest)) := by
  obtain ⟨after, blank, shorter, skip⟩ := padded.skip first.1
  refine ⟨fun further => ?_, fun fuel further enough => ?_⟩
  · rw [List.append_assoc]
    exact starts_name named _
  · simp only [List.length_append, List.length_cons] at enough
    obtain ⟨less, rfl⟩ := Nat.exists_eq_add_one_of_ne_zero (show fuel ≠ 0 by omega)
    rw [List.append_assoc, List.cons_append, readEntries_name spells named, List.append_assoc,
      List.cons_append, skip]
    refine (first.2 less _ (by omega) (blank.ends ends_comma)).bind ?_
    dsimp only
    rw [skipBlanks_append blank, skipBlanks_cons rfl]
    exact (others.2 less further (by omega)).bind (.inl rfl)

end Entries

/-- Every piece of text that the grammar derives is read as what it denotes. -/
theorem Derives.reads {phrase : Phrase} {text : List Char} (derives : Derives dialect phrase text) :
    Reads dialect phrase text := by
  induction derives with
  | word known => exact reads_word known
  | number valid accepted => exact reads_number valid accepted
  | string spells => exact reads_string spells
  | emptyArray blank => exact reads_emptyArray blank
  | array _ ih => exact reads_array ih
  | emptyObject blank => exact reads_emptyObject blank
  | object _ ih => exact reads_object ih
  | lastItem _ padded ih => exact reads_lastItem ih padded
  | item _ padded _ first others => exact reads_item first padded others
  | lastEntry spells named _ padded ih => exact reads_lastEntry spells named ih padded
  | entry spells named _ padded _ first others =>
    exact reads_entry spells named first padded others

/-- A text of a dialect is read as the value that it denotes, unless a number in it is too long. -/
theorem IsText.reads {text : List Char} {value : Json} (isText : IsText dialect text value) :
    Comes dialect (readChars text) value := by
  obtain ⟨inner, derives, padded⟩ := isText
  obtain ⟨starts, reads⟩ := derives.reads
  obtain ⟨after, blank, shorter, skip⟩ := padded.skip starts
  have skipAll := skip []
  rw [List.append_nil, List.append_nil] at skipAll
  unfold readChars
  split
  · -- A byte order mark would be the beginning of the value.
    rename_i marked
    obtain ⟨c, others, isFirst, -, -, -, noMark⟩ := starts
    rw [skipBlanks_cons rfl, isFirst] at skipAll
    exact absurd (List.cons.inj skipAll).1.symm noMark
  · rw [skipAll]
    have ends : Ends (after ++ []) := blank.ends (show Ends [] from trivial)
    rw [List.append_nil] at ends
    refine (reads (2 * text.length + 1) after (by omega) ends).bind ?_
    dsimp only
    rw [← List.append_nil after, skipBlanks_append blank]
    exact .inl rfl

/-- Where a text has been read, it denotes what was read. -/
theorem IsText.eq_of_read {text : List Char} {value found : Json} (isText : IsText dialect text value)
    (success : readChars text = .ok found) : found = value := by
  rcases isText.reads with read | ⟨-, fault, failed, -⟩
  · exact Except.ok.inj (success.symm.trans read)
  · cases success.symm.trans failed

end Derives

end Mson.Json
