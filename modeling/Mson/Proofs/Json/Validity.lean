import Mson.Proofs.Json.Printing

/-!
# Valid texts

A value is printed as standard JSON exactly if no double in it is NaN or infinite
(`isValid_printAt_iff`): those are spelled with letters that stand nowhere in a valid text outside of
its strings. From a text whose numerals are in the range of the doubles such a value is read
(`InRange.allFinite`).
-/
namespace Mson.Json

/-- Whether a text is standard JSON. -/
def IsValid (text : List Char) : Prop := ∃ value, IsText .standard text value

/-! ## Letters outside of strings -/

/-- Whether a letter `N` or `I` stands in a text outside of its strings. -/
def marked : Bool → List Char → Bool
  | _, [] => false
  | true, '\\' :: _ :: rest => marked true rest
  | inString, c :: rest =>
      if c = '\x22' then marked (!inString) rest
      else !inString && (c == 'N' || c == 'I') || marked inString rest

theorem marked_outside {c : Char} (notQuote : c ≠ '\x22') (rest : List Char) :
    marked false (c :: rest) = ((c == 'N' || c == 'I') || marked false rest) := by
  rw [marked.eq_3 false c rest fun _ _ inString => Bool.noConfusion inString, if_neg notQuote]
  rfl

theorem marked_escape (c : Char) (rest : List Char) :
    marked true ('\\' :: c :: rest) = marked true rest := rfl

/-- A character that closes no string and escapes none is passed over. -/
theorem marked_inside {c : Char} (notQuote : c ≠ '\x22') (notBackslash : c ≠ '\\') (rest : List Char) :
    marked true (c :: rest) = marked true rest := by
  rw [marked.eq_3 _ _ _ fun _ _ _ first => absurd first notBackslash, if_neg notQuote]
  rfl

/-- Whether a character leaves open what `marked` says. -/
def isQuiet (c : Char) : Bool := c != '\x22' && c != 'N' && c != 'I'

def Silent (text : List Char) : Prop := ∀ rest, marked false (text ++ rest) = marked false rest

def Loud (text : List Char) : Prop := ∀ rest, marked false (text ++ rest) = true

section Silent

variable {first second : List Char}

theorem Silent.append (left : Silent first) (right : Silent second) : Silent (first ++ second) := by
  intro rest
  rw [List.append_assoc, left, right]

theorem Silent.append_loud (left : Silent first) (right : Loud second) : Loud (first ++ second) := by
  intro rest
  rw [List.append_assoc, left, right]

theorem Loud.append (left : Loud first) : Loud (first ++ second) := by
  intro rest
  rw [List.append_assoc, left]

end Silent

theorem silent_of_quiet {text : List Char} (quiet : ∀ c ∈ text, isQuiet c = true) : Silent text := by
  intro rest
  induction text with
  | nil => rfl
  | cons c text ih =>
    obtain ⟨first, others⟩ := List.forall_mem_cons.mp quiet
    simp only [isQuiet, Bool.and_eq_true, bne_iff_ne] at first
    obtain ⟨⟨notQuote, notN⟩, notI⟩ := first
    rw [List.cons_append, marked_outside notQuote]
    simp [notN, notI, ih others]

theorem silent_of_all {text : List Char} (quiet : text.all isQuiet = true) : Silent text :=
  silent_of_quiet (List.all_eq_true.mp quiet)

theorem AllBlank.silent {blanks : List Char} (blank : AllBlank blanks) : Silent blanks := by
  refine silent_of_quiet fun c among => ?_
  have isBlank_ := blank c among
  simp only [isBlank, Bool.or_eq_true, beq_iff_eq] at isBlank_
  rcases isBlank_ with ((rfl | rfl) | rfl) | rfl <;> rfl

theorem Padded.silent {inner text : List Char} (padded : Padded inner text) (silent : Silent inner) :
    Silent text := by
  obtain ⟨before, after, blankBefore, blankAfter, rfl⟩ := padded
  exact blankBefore.silent.append (silent.append blankAfter.silent)

/-! ## Strings -/

theorem hexValue?_ne {c : Char} {value : Nat} (isHex : hexValue? c = some value) :
    c ≠ '\x22' ∧ c ≠ '\\' := by
  constructor <;> rintro rfl <;> cases isHex

theorem marked_codeUnit {a b c d : Char} {unit : Nat} (isUnit : codeUnit? a b c d = some unit)
    (rest : List Char) : marked true ('\\' :: 'u' :: a :: b :: c :: d :: rest) = marked true rest := by
  simp only [codeUnit?, Option.bind_eq_bind, Option.bind_eq_some_iff] at isUnit
  obtain ⟨_, hexA, _, hexB, _, hexC, _, hexD, -⟩ := isUnit
  rw [marked_escape, marked_inside (hexValue?_ne hexA).1 (hexValue?_ne hexA).2,
    marked_inside (hexValue?_ne hexB).1 (hexValue?_ne hexB).2,
    marked_inside (hexValue?_ne hexC).1 (hexValue?_ne hexC).2,
    marked_inside (hexValue?_ne hexD).1 (hexValue?_ne hexD).2]

theorem Spells.marked_append {body chars : List Char} (spells : Spells body chars)
    (rest : List Char) : marked true (body ++ '\x22' :: rest) = marked false rest := by
  induction spells with
  | nil => rfl
  | plain notQuote notBackslash _ _ ih =>
    rw [List.cons_append, marked_inside notQuote notBackslash, ih]
  | escape _ _ ih => exact ih
  | unit isUnit _ _ ih =>
    simp only [List.cons_append]
    rw [marked_codeUnit isUnit, ih]
  | pair isHigh _ isLow _ _ ih =>
    simp only [List.cons_append]
    rw [marked_codeUnit isHigh, marked_codeUnit isLow, ih]

/-- What a string says does not count. -/
theorem Spells.silent {body chars : List Char} (spells : Spells body chars) :
    Silent (quoted body) := by
  intro rest
  rw [quoted, List.cons_append, List.append_assoc, List.singleton_append]
  exact spells.marked_append rest

/-! ## Numerals -/

theorem isQuiet_of_isDigit {c : Char} (digit : isDigit c = true) : isQuiet c = true := by
  simp only [isQuiet, Bool.and_eq_true, bne_iff_ne]
  refine ⟨⟨?_, ?_⟩, ?_⟩ <;> rintro rfl <;> cases digit

theorem Numeral.Valid.silent {numeral : Numeral} (valid : numeral.Valid) : Silent numeral.text := by
  have digits : ∀ {text}, AllDigits text → ∀ c ∈ text, isQuiet c = true :=
    fun all c among => isQuiet_of_isDigit (all c among)
  have sign : Silent (if numeral.negative then ['-'] else []) := by
    cases numeral.negative <;> exact silent_of_all rfl
  have fraction : Silent numeral.fractionText := by
    unfold Numeral.fractionText
    split
    · exact fun _ => rfl
    · exact silent_of_quiet (List.forall_mem_cons.mpr ⟨rfl, digits valid.fraction⟩)
  have exponent : Silent numeral.exponentText := by
    unfold Numeral.exponentText
    cases given : numeral.exponent with
    | none => exact fun _ => rfl
    | some exponent =>
      obtain ⟨marked, signed, -, all⟩ := valid.exponent exponent given
      refine silent_of_quiet (List.forall_mem_cons.mpr ⟨?_, fun c among => ?_⟩)
      · rcases marked with same | same <;> rw [same] <;> rfl
      · rcases List.mem_append.mp among with inSign | inDigits
        · rcases signed with same | same | same <;> rw [same] at inSign
          · cases inSign
          · rw [List.mem_singleton.mp inSign]
            rfl
          · rw [List.mem_singleton.mp inSign]
            rfl
        · exact digits all c inDigits
  exact (sign.append (silent_of_quiet (digits valid.whole))).append (fraction.append exponent)

/-! ## Valid texts are silent -/

theorem silent_singleton {c : Char} (quiet : isQuiet c = true) : Silent [c] :=
  silent_of_quiet (List.forall_mem_singleton.mpr quiet)

/-- Between two characters that are quiet. -/
theorem Silent.between {first last : Char} {text : List Char} (silent : Silent text)
    (opens : isQuiet first = true) (closes : isQuiet last = true) :
    Silent (first :: (text ++ [last])) :=
  (silent_singleton opens).append (silent.append (silent_singleton closes))

theorem Derives.silent {phrase : Phrase} {text : List Char} (derives : Derives .standard phrase text) :
    Silent text := by
  have colon : Silent [':'] := silent_singleton rfl
  have comma : Silent [','] := silent_singleton rfl
  induction derives with
  | word known =>
    simp only [Dialect.standard, standardWords, List.mem_cons, Prod.mk.injEq, List.not_mem_nil,
      or_false] at known
    rcases known with ⟨rfl, -⟩ | ⟨rfl, -⟩ | ⟨rfl, -⟩ <;> exact silent_of_all rfl
  | number valid _ => exact valid.silent
  | string spells => exact spells.silent
  | emptyArray blank => exact blank.silent.between rfl rfl
  | array _ ih => exact ih.between rfl rfl
  | emptyObject blank => exact blank.silent.between rfl rfl
  | object _ ih => exact ih.between rfl rfl
  | lastItem _ padded ih => exact padded.silent ih
  | item _ padded _ ih others => exact (padded.silent ih).append (comma.append others)
  | lastEntry spells named _ padded ih =>
    exact (named.silent spells.silent).append (colon.append (padded.silent ih))
  | entry spells named _ padded _ ih others =>
    exact (named.silent spells.silent).append
      (colon.append ((padded.silent ih).append (comma.append others)))

theorem IsValid.silent {text : List Char} (valid : IsValid text) : Silent text := by
  obtain ⟨_, inner, derives, padded⟩ := valid
  exact padded.silent derives.silent

/-! ## Printed texts -/

theorem isText_numeral {numeral : Numeral} (valid : numeral.Valid) :
    IsText .standard numeral.text numeral.value := ⟨_, .number valid trivial, padded_self _⟩

/-- A value without NaN and infinite doubles is printed as valid text. -/
theorem isValid_printAt (layout : Layout) (depth : Nat) {value : Json} (finite : value.AllFinite) :
    IsValid (printAt layout depth value) := by
  obtain ⟨denoted, derives, -⟩ := shows_printAt layout depth value (finite.imp showsScalar_standard)
  exact ⟨denoted, _, derives, padded_self _⟩

theorem loud_double {number : Double} (notFinite : ¬ number.IsFinite) :
    Loud (number.toText doubleLayout).toList := by
  cases number with
  | finite => exact absurd trivial notFinite
  | nan => exact fun _ => rfl
  | infinity negative => cases negative <;> exact fun _ => rfl

theorem Layout.silent_comma (layout : Layout) (depth : Nat) : Silent (layout.comma depth) := by
  obtain ⟨blanks, blank, comma⟩ := layout.exists_comma depth
  rw [comma]
  exact (silent_singleton rfl).append blank.silent

mutual

/-- Any other one is printed with a letter that is not in a valid text. -/
theorem loud_printAt (layout : Layout) (depth : Nat) :
    (value : Json) → ¬ value.AllFinite → Loud (printAt layout depth value)
  | .null, notFinite | .bool _, notFinite | .int _, notFinite | .string _, notFinite
  | .array [], notFinite | .object [], notFinite => absurd trivial notFinite
  | .double _, notFinite => loud_double notFinite
  | .array (item :: items), notFinite => by
    have opening : Silent ('[' :: layout.break (depth + 1)) :=
      (silent_singleton rfl).append (layout.allBlank_break _).silent
    rw [printAt]
    refine Loud.append (Loud.append ?_)
    by_cases finite : item.AllFinite
    · refine (opening.append (isValid_printAt layout _ finite).silent).append_loud ?_
      exact loud_printItems layout _ items fun others => notFinite ⟨finite, others⟩
    · exact (opening.append_loud (loud_printAt layout _ item finite)).append
  | .object ((name, value) :: entries), notFinite => by
    have opening : Silent ('\x7b' :: layout.break (depth + 1) ++ printString name ++ [':', ' ']) :=
      (((silent_singleton rfl).append (layout.allBlank_break _).silent).append
        (spells_escaped name.toList).silent).append (silent_of_all rfl)
    rw [printAt]
    refine Loud.append (Loud.append ?_)
    by_cases finite : value.AllFinite
    · refine (opening.append (isValid_printAt layout _ finite).silent).append_loud ?_
      exact loud_printEntries layout _ entries fun others => notFinite ⟨finite, others⟩
    · exact (opening.append_loud (loud_printAt layout _ value finite)).append

theorem loud_printItems (layout : Layout) (depth : Nat) :
    (items : List Json) → ¬ EveryItem IsFinite items → Loud (printItems layout depth items)
  | [], notFinite => absurd trivial notFinite
  | item :: items, notFinite => by
    have comma := layout.silent_comma depth
    rw [printItems]
    by_cases finite : item.AllFinite
    · refine (comma.append (isValid_printAt layout _ finite).silent).append_loud ?_
      exact loud_printItems layout _ items fun others => notFinite ⟨finite, others⟩
    · exact (comma.append_loud (loud_printAt layout _ item finite)).append

theorem loud_printEntries (layout : Layout) (depth : Nat) : (entries : List (String × Json)) →
    ¬ EveryEntry IsFinite entries → Loud (printEntries layout depth entries)
  | [], notFinite => absurd trivial notFinite
  | (name, value) :: entries, notFinite => by
    have opening : Silent (layout.comma depth ++ printString name ++ [':', ' ']) :=
      ((layout.silent_comma depth).append (spells_escaped name.toList).silent).append
        (silent_of_all rfl)
    rw [printEntries]
    by_cases finite : value.AllFinite
    · refine (opening.append (isValid_printAt layout _ finite).silent).append_loud ?_
      exact loud_printEntries layout _ entries fun others => notFinite ⟨finite, others⟩
    · exact (opening.append_loud (loud_printAt layout _ value finite)).append

end

/-- A value is printed as valid text exactly if no double in it is NaN or infinite. -/
theorem isValid_printAt_iff {layout : Layout} {depth : Nat} {value : Json} :
    IsValid (printAt layout depth value) ↔ value.AllFinite := by
  refine ⟨fun valid => ?_, isValid_printAt layout depth⟩
  by_contra notFinite
  have silent := valid.silent []
  rw [loud_printAt layout depth value notFinite] at silent
  cases silent

/-! ## Texts in range -/

/-- Standard JSON without numerals that are beyond the doubles. -/
def Dialect.inRange : Dialect :=
  ⟨standardWords, fun _ known => known, Dialect.mem_words_of_standard,
    fun numeral => numeral.value.AllFinite⟩

/-- Whether a text is standard JSON and no numeral in it is beyond the doubles. -/
def InRange (text : List Char) : Prop := ∃ value, IsText .inRange text value

def Phrase.Every (holds : Json → Prop) : Phrase → Prop
  | .value json => json.Every holds
  | .items list => EveryItem holds list
  | .entries pairs => EveryEntry holds pairs

/-- A property that strings and the words and numbers of a dialect have holds throughout of what is
denoted in the dialect. -/
theorem Derives.every {dialect : Dialect} {holds : Json → Prop}
    (ofWord : ∀ word ∈ dialect.words, word.2.Every holds)
    (ofNumeral : ∀ numeral : Numeral, dialect.Accepts numeral → numeral.value.Every holds)
    (ofString : ∀ text, holds (.string text)) {phrase : Phrase} {text : List Char}
    (derives : Derives dialect phrase text) : phrase.Every holds := by
  induction derives with
  | word known => exact ofWord _ known
  | number _ accepted => exact ofNumeral _ accepted
  | string _ => exact ofString _
  | emptyArray _ => exact trivial
  | array _ ih => exact ih
  | emptyObject _ => exact trivial
  | object _ ih => exact everyEntry_ofEntries ih
  | lastItem _ _ ih => exact ⟨ih, trivial⟩
  | item _ _ _ ih others => exact ⟨ih, others⟩
  | lastEntry _ _ _ _ ih => exact ⟨ih, trivial⟩
  | entry _ _ _ _ _ ih others => exact ⟨ih, others⟩

/-- A text in range denotes a value without NaN and infinite doubles. -/
theorem allFinite_of_inRange {text : List Char} {value : Json} (isText : IsText .inRange text value) :
    value.AllFinite := by
  obtain ⟨inner, derives, -⟩ := isText
  refine derives.every (fun word known => ?_) (fun _ accepted => accepted) fun _ => trivial
  simp only [Dialect.inRange, standardWords, List.mem_cons, List.not_mem_nil, or_false] at known
  rcases known with rfl | rfl | rfl <;> trivial

/-- What is read of a text in range has no NaN and no infinite double. -/
theorem InRange.allFinite {text : List Char} {value : Json} (inRange : InRange text)
    (success : readChars text = .ok value) : value.AllFinite := by
  obtain ⟨denoted, isText⟩ := inRange
  rw [isText.eq_of_read success]
  exact allFinite_of_inRange isText

end Mson.Json
