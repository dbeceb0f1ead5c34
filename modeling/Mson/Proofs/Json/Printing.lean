import Mson.Proofs.Json.Reading
import Mson.Proofs.Json.Result

/-!
# Printed values

A value is printed as a text of every dialect that can show its scalars (`shows_printAt`).
Standard JSON can show all of them but NaN and the infinite doubles; the reader takes those too, so that
printing a value that was read and reading it again gives the same value (`read_print`).
-/
namespace Mson.Json

/-! ## Strings -/

theorem codeUnit?_hexUnit : ∀ n < 0x20,
    codeUnit? (hexDigit (n / 4096 % 16)) (hexDigit (n / 256 % 16)) (hexDigit (n / 16 % 16))
      (hexDigit (n % 16)) = some n ∧ isHighSurrogate n = false ∧ isLowSurrogate n = false := by
  decide

theorem spells_escapeChar (c : Char) {body chars : List Char} (rest : Spells body chars) :
    Spells (escapeChar c ++ body) (c :: chars) := by
  unfold escapeChar
  by_cases quote : c = '\x22'
  · rw [if_pos quote, quote]
    exact .escape rfl rest
  rw [if_neg quote]
  by_cases backslash : c = '\\'
  · rw [if_pos backslash, backslash]
    exact .escape rfl rest
  rw [if_neg backslash]
  split
  · rename_i same
    exact same ▸ .escape rfl rest
  split
  · rename_i same
    exact same ▸ .escape rfl rest
  split
  · rename_i same
    exact same ▸ .escape rfl rest
  split
  · rename_i same
    exact same ▸ .escape rfl rest
  split
  · rename_i same
    exact same ▸ .escape rfl rest
  split
  · rename_i control
    obtain ⟨isUnit, notHigh, notLow⟩ := codeUnit?_hexUnit c.toNat control
    have same : unitChar c.toNat = c := by
      rw [unitChar, notHigh, notLow]
      exact Char.ofNat_toNat c
    have escaped := Spells.unit isUnit (fun high => by rw [notHigh] at high; cases high) rest
    rwa [same] at escaped
  · rename_i noControl
    exact .plain quote backslash (Nat.le_of_not_lt noControl) rest

theorem spells_escaped (chars : List Char) : Spells (chars.flatMap escapeChar) chars := by
  induction chars with
  | nil => exact .nil
  | cons c chars ih =>
    rw [List.flatMap_cons]
    exact spells_escapeChar c ih

theorem printString_eq (text : String) :
    printString text = quoted (text.toList.flatMap escapeChar) := rfl

/-! ## Layout -/

theorem allBlank_replicate (count : Nat) : AllBlank (List.replicate count ' ') := by
  intro c among
  rw [List.eq_of_mem_replicate among]
  rfl

theorem Layout.allBlank_break (layout : Layout) (depth : Nat) : AllBlank (layout.break depth) := by
  cases layout with
  | oneLine => exact fun _ none => absurd none List.not_mem_nil
  | indented width => exact List.forall_mem_cons.mpr ⟨rfl, allBlank_replicate _⟩

theorem Layout.exists_comma (layout : Layout) (depth : Nat) :
    ∃ blanks, AllBlank blanks ∧ layout.comma depth = ',' :: blanks := by
  cases layout with
  | oneLine => exact ⟨[' '], allBlank_replicate 1, rfl⟩
  | indented width => exact ⟨_, Layout.allBlank_break (.indented width) depth, rfl⟩

theorem padded_self (text : List Char) : Padded text text :=
  ⟨[], [], fun _ none => absurd none List.not_mem_nil, fun _ none => absurd none List.not_mem_nil,
    (List.append_nil text).symm⟩

theorem padded_before {inner before : List Char} (blank : AllBlank before) :
    Padded inner (before ++ (inner ++ [])) :=
  ⟨before, [], blank, fun _ none => absurd none List.not_mem_nil, rfl⟩

/-! ## Values -/

section Values

variable {dialect : Dialect}

/-- Whether a text denotes something in a dialect, and the value it is to show if that is one that can
be read. -/
def Shows (dialect : Dialect) (text : List Char) (value : Json) : Prop :=
  ∃ denoted, Derives dialect (.value denoted) text ∧
    (value.WellFormed → value.Every Representable → denoted = value)

/-- Whether a dialect can show a scalar as it is printed. -/
def Dialect.ShowsScalar (dialect : Dialect) (scalar : Json) : Prop :=
  ∀ layout depth, Shows dialect (printAt layout depth scalar) scalar

mutual

/-- A dialect that can show the scalars of a value can show the value. -/
theorem shows_printAt (layout : Layout) (depth : Nat) :
    (value : Json) → value.Every dialect.ShowsScalar →
      Shows dialect (printAt layout depth value) value
  | .null, each | .bool _, each | .int _, each | .double _, each | .string _, each =>
    each layout depth
  | .array [], _ => ⟨.array [], .emptyArray fun _ none => absurd none List.not_mem_nil,
      fun _ _ => rfl⟩
  | .array (item :: items), ⟨first, others⟩ => by
    obtain ⟨denoted, derives, same⟩ := shows_printAt layout (depth + 1) item first
    obtain ⟨rest, derivesAll, sameRest⟩ := derives_printItems layout (depth + 1) items others derives
      (layout.allBlank_break (depth + 1)) (layout.allBlank_break depth)
    refine ⟨.array (denoted :: rest), ?_, ?_⟩
    · have whole := Derives.array derivesAll
      simp only [printAt]
      simpa using whole
    · rintro ⟨wellFormed, othersWellFormed⟩ ⟨representable, othersRepresentable⟩
      rw [same wellFormed representable, sameRest othersWellFormed othersRepresentable]
  | .object [], _ => ⟨.object [], .emptyObject fun _ none => absurd none List.not_mem_nil,
      fun _ _ => rfl⟩
  | .object ((name, value) :: entries), ⟨first, others⟩ => by
    obtain ⟨denoted, derives, same⟩ := shows_printAt layout (depth + 1) value first
    obtain ⟨rest, derivesAll, sameRest⟩ := derives_printEntries layout (depth + 1) entries others
      name derives (layout.allBlank_break (depth + 1)) (layout.allBlank_break depth)
    refine ⟨.object (Mapping.ofEntries ((name, denoted) :: rest)), ?_, ?_⟩
    · have whole := Derives.object derivesAll
      simp only [printAt]
      simpa using whole
    · rintro ⟨distinct, wellFormed, othersWellFormed⟩ ⟨representable, othersRepresentable⟩
      rw [same wellFormed representable, sameRest othersWellFormed othersRepresentable]
      exact congrArg Json.object (Mapping.overwrite_nil distinct)

theorem derives_printItems (layout : Layout) (depth : Nat) :
    (items : List Json) → EveryItem dialect.ShowsScalar items →
      ∀ {first : Json} {inner before after : List Char}, Derives dialect (.value first) inner →
        AllBlank before → AllBlank after →
        ∃ denoted, Derives dialect (.items (first :: denoted))
            (before ++ (inner ++ (printItems layout depth items ++ after))) ∧
          (ItemsWellFormed items → EveryItem Representable items → denoted = items)
  | [], _, first, inner, before, after, derives, blankBefore, blankAfter =>
    ⟨[], .lastItem derives ⟨before, after, blankBefore, blankAfter, rfl⟩, fun _ _ => rfl⟩
  | item :: items, ⟨each, others⟩, first, inner, before, after, derives, blankBefore, blankAfter => by
    obtain ⟨denoted, derivesItem, same⟩ := shows_printAt layout depth item each
    obtain ⟨blanks, blank, comma⟩ := layout.exists_comma depth
    obtain ⟨rest, derivesAll, sameRest⟩ := derives_printItems layout depth items others derivesItem
      blank blankAfter
    refine ⟨denoted :: rest, ?_, ?_⟩
    · have whole := Derives.item derives (padded_before blankBefore) derivesAll
      simp only [printItems, comma]
      simpa using whole
    · rintro ⟨wellFormed, othersWellFormed⟩ ⟨representable, othersRepresentable⟩
      rw [same wellFormed representable, sameRest othersWellFormed othersRepresentable]

theorem derives_printEntries (layout : Layout) (depth : Nat) :
    (entries : List (String × Json)) → EveryEntry dialect.ShowsScalar entries →
      ∀ (name : String) {first : Json} {inner before after : List Char},
        Derives dialect (.value first) inner → AllBlank before → AllBlank after →
        ∃ denoted, Derives dialect (.entries ((name, first) :: denoted))
            (before ++ (printString name ++ (':' :: ' ' ::
              (inner ++ (printEntries layout depth entries ++ after))))) ∧
          (EntriesWellFormed entries → EveryEntry Representable entries → denoted = entries)
  | [], _, name, first, inner, before, after, derives, blankBefore, blankAfter => by
    refine ⟨[], ?_, fun _ _ => rfl⟩
    have last := Derives.lastEntry (spells_escaped name.toList) (padded_before blankBefore) derives
      ⟨[' '], after, allBlank_replicate 1, blankAfter, rfl⟩
    rw [String.ofList_toList, ← printString_eq] at last
    simpa [printEntries] using last
  | (next, value) :: entries, ⟨each, others⟩, name, first, inner, before, after, derives,
      blankBefore, blankAfter => by
    obtain ⟨denoted, derivesValue, same⟩ := shows_printAt layout depth value each
    obtain ⟨blanks, blank, comma⟩ := layout.exists_comma depth
    obtain ⟨rest, derivesAll, sameRest⟩ := derives_printEntries layout depth entries others next
      derivesValue blank blankAfter
    refine ⟨(next, denoted) :: rest, ?_, ?_⟩
    · have whole := Derives.entry (spells_escaped name.toList) (padded_before blankBefore) derives
        (padded_before (allBlank_replicate 1)) derivesAll
      rw [String.ofList_toList, ← printString_eq] at whole
      simp only [printEntries, comma]
      simpa using whole
    · rintro ⟨wellFormed, othersWellFormed⟩ ⟨representable, othersRepresentable⟩
      rw [same wellFormed representable, sameRest othersWellFormed othersRepresentable]

end

end Values

/-! ## Scalars -/

section Scalars

variable {dialect : Dialect}

/-- The words are printed as they are read. -/
theorem showsScalar_of_word (name : String) {value : Json} (known : (name, value) ∈ dialect.words)
    (printed : ∀ layout depth, printAt layout depth value = name.toList) :
    dialect.ShowsScalar value := fun layout depth =>
  ⟨value, printed layout depth ▸ .word known, fun _ _ => rfl⟩

theorem showsScalar_string (text : String) : dialect.ShowsScalar (.string text) := by
  intro layout depth
  have derives : Derives dialect _ _ := .string (spells_escaped text.toList)
  rw [String.ofList_toList, ← printString_eq] at derives
  exact ⟨.string text, derives, fun _ _ => rfl⟩

theorem showsScalar_int {value : Int} (accepted : dialect.Accepts (.ofInt value)) :
    dialect.ShowsScalar (.int value) := by
  intro layout depth
  have derives := Derives.number (Numeral.valid_ofInt value) accepted
  rw [Numeral.text_ofInt, Numeral.value_ofInt] at derives
  exact ⟨.int value, derives, fun _ _ => rfl⟩

theorem showsScalar_double {number : Double} (finite : number.IsFinite)
    (accepted : ∀ numeral : Numeral, numeral.isTooLong = false → dialect.Accepts numeral) :
    dialect.ShowsScalar (.double number) := by
  intro layout depth
  obtain ⟨numeral, valid, isText, denotes, short⟩ := Numeral.exists_numeral_double finite
  have derives := Derives.number valid (accepted numeral short)
  rw [isText] at derives
  exact ⟨numeral.value, derives, fun _ normal => denotes normal⟩

/-- Scalars other than numbers can be shown in every dialect. -/
theorem showsScalar_of_numbers {scalar : Json} (isScalar : scalar.IsScalar)
    (int : ∀ value, scalar = .int value → dialect.Accepts (.ofInt value))
    (double : ∀ number, scalar = .double number → dialect.ShowsScalar (.double number)) :
    dialect.ShowsScalar scalar := by
  have word : ∀ {word}, word ∈ standardWords → word ∈ dialect.words := dialect.hasStandard _
  cases scalar with
  | null => exact showsScalar_of_word "null" (word (by simp [standardWords])) fun _ _ => rfl
  | bool value =>
    cases value with
    | true => exact showsScalar_of_word "true" (word (by simp [standardWords])) fun _ _ => rfl
    | false => exact showsScalar_of_word "false" (word (by simp [standardWords])) fun _ _ => rfl
  | int value => exact showsScalar_int (int value rfl)
  | double number => exact double number rfl
  | string text => exact showsScalar_string text
  | array _ => cases isScalar
  | object _ => cases isScalar

end Scalars

/-- Standard JSON can show every scalar but NaN and the infinite doubles. -/
theorem showsScalar_standard (scalar : Json) (isScalar : scalar.IsScalar) (finite : scalar.IsFinite) :
    Dialect.standard.ShowsScalar scalar := by
  refine showsScalar_of_numbers isScalar (fun _ _ => trivial) fun number same => ?_
  subst same
  exact showsScalar_double finite fun _ _ => trivial

/-- What can be read can be shown to the reader again. -/
theorem showsScalar_readable (scalar : Json) (isScalar : scalar.IsScalar)
    (representable : scalar.Representable) : Dialect.readable.ShowsScalar scalar := by
  refine showsScalar_of_numbers isScalar (fun value same => ?_) fun number same => ?_
  · subst same
    exact (Numeral.isTooLong_ofInt value).mpr representable
  · cases number with
    | finite => exact showsScalar_double trivial fun _ short => short
    | nan => exact showsScalar_of_word "NaN" (by simp [Dialect.readable, words]) fun _ _ => rfl
    | infinity negative =>
      cases negative with
      | true =>
        exact showsScalar_of_word "-Infinity" (by simp [Dialect.readable, words]) fun _ _ => rfl
      | false =>
        exact showsScalar_of_word "Infinity" (by simp [Dialect.readable, words]) fun _ _ => rfl

/-- A value that can be read is read from the text that it is printed as. -/
theorem read_print {value : Json} (wellFormed : value.WellFormed)
    (representable : value.Every Representable) (layout : Layout) :
    readChars (printAt layout 0 value) = .ok value := by
  obtain ⟨denoted, derives, same⟩ := shows_printAt layout 0 value
    (representable.imp showsScalar_readable)
  have isText : IsText .readable (printAt layout 0 value) value :=
    ⟨_, same wellFormed representable ▸ derives, padded_self _⟩
  rcases isText.reads with success | ⟨⟨numeral, short, long⟩, -⟩
  · exact success
  · rw [show numeral.isTooLong = false from short] at long
    cases long

end Mson.Json
