import Mson.Proofs.Computation
import Mson.Proofs.Json.Numeral
import Mson.Proofs.Json.Part

/-!
# What the reader builds

A property that strings and the words and numbers of JSON have, and that passes from the parts of an
array or an object to the whole, holds of whatever is read (`readChars_holds`). So what is read is well
formed, and its integers and doubles are those that numerals denote (`read_representable`).
-/
namespace Mson.Json

/-! ## Scalars -/

mutual

/-- Whether all scalars in a value have a property. -/
def Every (holds : Json → Prop) : Json → Prop
  | .null => holds .null
  | .bool value => holds (.bool value)
  | .int value => holds (.int value)
  | .double value => holds (.double value)
  | .string text => holds (.string text)
  | .array items => EveryItem holds items
  | .object entries => EveryEntry holds entries

def EveryItem (holds : Json → Prop) : List Json → Prop
  | [] => True
  | item :: items => Every holds item ∧ EveryItem holds items

def EveryEntry (holds : Json → Prop) : List (String × Json) → Prop
  | [] => True
  | (_, value) :: entries => Every holds value ∧ EveryEntry holds entries

end

theorem everyItem_iff {holds : Json → Prop} {items : List Json} :
    EveryItem holds items ↔ ∀ item ∈ items, item.Every holds := by
  induction items with
  | nil => simp [EveryItem]
  | cons item rest ih => simp [EveryItem, ih]

theorem everyEntry_iff {holds : Json → Prop} {entries : List (String × Json)} :
    EveryEntry holds entries ↔ ∀ entry ∈ entries, entry.2.Every holds := by
  induction entries with
  | nil => simp [EveryEntry]
  | cons entry rest ih => simp [EveryEntry, ih]

/-- Of entries of one name only some are kept. -/
theorem everyEntry_ofEntries {holds : Json → Prop} {entries : List (String × Json)}
    (every : EveryEntry holds entries) : EveryEntry holds (Mapping.ofEntries entries) :=
  everyEntry_iff.mpr fun entry among => (Mapping.mem_overwrite among).elim
    (fun none => absurd none List.not_mem_nil) (everyEntry_iff.mp every entry)

def IsScalar : Json → Prop
  | .array _ | .object _ => False
  | _ => True

mutual

theorem Every.imp {holds other : Json → Prop}
    (each : ∀ scalar : Json, scalar.IsScalar → holds scalar → other scalar) :
    (value : Json) → value.Every holds → value.Every other
  | .null, here => each .null trivial here
  | .bool value, here => each (.bool value) trivial here
  | .int value, here => each (.int value) trivial here
  | .double value, here => each (.double value) trivial here
  | .string text, here => each (.string text) trivial here
  | .array items, all => EveryItem.imp each items all
  | .object entries, all => EveryEntry.imp each entries all

theorem EveryItem.imp {holds other : Json → Prop}
    (each : ∀ scalar : Json, scalar.IsScalar → holds scalar → other scalar) :
    (items : List Json) → EveryItem holds items → EveryItem other items
  | [], _ => trivial
  | item :: items, ⟨first, others⟩ => ⟨Every.imp each item first, EveryItem.imp each items others⟩

theorem EveryEntry.imp {holds other : Json → Prop}
    (each : ∀ scalar : Json, scalar.IsScalar → holds scalar → other scalar) :
    (entries : List (String × Json)) → EveryEntry holds entries → EveryEntry other entries
  | [], _ => trivial
  | (_, value) :: entries, ⟨first, others⟩ =>
    ⟨Every.imp each value first, EveryEntry.imp each entries others⟩

end

theorem Every.part {holds : Json → Prop} {part whole : Json} (every : whole.Every holds)
    (isPart : IsPart part whole) : part.Every holds := by
  induction isPart with
  | self => exact every
  | item among _ ih => exact ih (everyItem_iff.mp every _ among)
  | entry among _ ih => exact ih (everyEntry_iff.mp every _ among)

/-- Whether a scalar is one that a text can denote: an integer of no more digits than are read, a
double in normal form. -/
def Representable : Json → Prop
  | .int value => value.natAbs < 10 ^ digitLimit
  | .double value => value.IsNormal
  | _ => True

/-- Whether a scalar is neither NaN nor an infinite double. -/
def IsFinite : Json → Prop
  | .double value => value.IsFinite
  | _ => True

/-- Whether no double in a value is NaN or infinite. -/
abbrev AllFinite (value : Json) : Prop := value.Every IsFinite

/-! ## Reading -/

/-- The values of words and numbers. -/
inductive Denoted : Json → Prop
  | null : Denoted .null
  | bool (value : Bool) : Denoted (.bool value)
  | int {value : Int} (short : value.natAbs < 10 ^ digitLimit) : Denoted (.int value)
  | double {number : Double} (normal : number.IsNormal) : Denoted (.double number)

theorem denoted_of_word {name : String} {value : Json} (known : (name, value) ∈ words) :
    Denoted value := by
  simp only [words, List.mem_cons, Prod.mk.injEq, List.not_mem_nil, or_false] at known
  rcases known with ⟨-, rfl⟩ | ⟨-, rfl⟩ | ⟨-, rfl⟩ | ⟨-, rfl⟩ | ⟨-, rfl⟩ | ⟨-, rfl⟩
  · exact .null
  · exact .bool true
  · exact .bool false
  all_goals exact .double trivial

theorem digitsValue_lt {digits : List Char} (all : AllDigits digits) :
    digitsValue digits < 10 ^ digits.length := by
  induction digits using List.reverseRecOn with
  | nil => decide
  | append_singleton digits last ih =>
    have front := ih fun c among => all c (List.mem_append_left _ among)
    have digit := all last (List.mem_append_right _ List.mem_cons_self)
    have small : last.toNat - '0'.toNat < 10 := by
      have most : last.toNat ≤ '9'.toNat :=
        UInt32.le_iff_toNat_le.mp (of_decide_eq_true (Bool.and_eq_true_iff.mp digit).2)
      exact Nat.lt_succ_of_le (Nat.sub_le_sub_right most _)
    rw [digitsValue_eq, Nat.ofDigitChars_append, ← digitsValue_eq, List.length_append,
      List.length_singleton, Nat.pow_succ]
    show 10 * digitsValue digits + (last.toNat - '0'.toNat) < _
    omega

theorem readNumberTail_denoted {negative : Bool} {whole text rest : List Char} {start : Nat}
    {value : Json} (all : AllDigits whole)
    (success : readNumberTail negative whole start text = .ok (value, rest)) : Denoted value := by
  have integer : whole.length ≤ digitLimit → Denoted (.int (if negative then
      -(digitsValue whole : Int) else digitsValue whole)) := by
    intro short
    have bound : digitsValue whole < 10 ^ digitLimit :=
      (digitsValue_lt all).trans_le (Nat.pow_le_pow_right (by decide) short)
    refine .int ?_
    cases negative <;> simpa using bound
  unfold readNumberTail at success
  split at success
  split at success
  · cases success
    exact .double (Double.isNormal_ofDecimal ..)
  · split at success
    · split at success
      · cases success
      · rename_i short
        cases success
        exact integer (Nat.le_of_not_lt short)
    · cases success
      exact .double (Double.isNormal_ofDecimal ..)

theorem readNumber_denoted {text rest : List Char} {value : Json}
    (success : readNumber text = .ok (value, rest)) : Denoted value := by
  unfold readNumber at success
  simp only at success
  split at success
  · exact readNumberTail_denoted (allDigits_zeros 1) success
  · split at success
    · exact readNumberTail_denoted (fun _ => List.all_eq_true.mp List.all_takeWhile _) success
    · cases success
  · cases success

theorem readScalar_denoted {text rest : List Char} {value : Json}
    (success : readScalar text = .ok (value, rest)) : Denoted value := by
  unfold readScalar at success
  split at success
  · rename_i found word
    cases success
    obtain ⟨⟨name, constant⟩, known, matched⟩ := List.exists_of_findSome?_eq_some word
    obtain ⟨_, _, same⟩ := Option.map_eq_some_iff.mp matched
    cases same
    exact denoted_of_word known
  · exact readNumber_denoted success

/-- A property that reading hands on from scalars to what it builds of them. -/
structure Builds (holds : Json → Prop) : Prop where
  denoted : ∀ value, Denoted value → holds value
  string : ∀ text, holds (.string text)
  array : ∀ items, (∀ item ∈ items, holds item) → holds (.array items)
  object : ∀ entries : List (String × Json), (∀ entry ∈ entries, holds entry.2) →
    holds (.object (Mapping.ofEntries entries))

section Builds

variable {holds : Json → Prop} (builds : Builds holds)

include builds

/-- What is read with any fuel has the property, and so has all that is read inside of it. -/
theorem readValue_holds (fuel : Nat) :
    (∀ text value rest, readValue fuel text = .ok (value, rest) → holds value) ∧
    (∀ text items rest, readItems fuel text = .ok (items, rest) → ∀ item ∈ items, holds item) ∧
    ∀ text entries rest, readEntries fuel text = .ok (entries, rest) →
      ∀ entry ∈ entries, holds entry.2 := by
  induction fuel with
  | zero =>
    refine ⟨fun _ _ _ success => ?_, fun _ _ _ success => ?_, fun _ _ _ success => ?_⟩
    · rw [readValue] at success
      cases success
    · rw [readItems] at success
      cases success
    · rw [readEntries] at success
      cases success
  | succ fuel ih =>
    obtain ⟨ofValue, ofItems, ofEntries⟩ := ih
    refine ⟨fun text value rest success => ?_, fun text items rest success => ?_,
      fun text entries rest success => ?_⟩
    · rw [readValue.eq_def] at success
      simp only at success
      split at success
      · obtain ⟨⟨_, _⟩, _, same⟩ := bind_eq_ok_iff.mp success
        cases same
        exact builds.string _
      · split at success
        · cases success
          exact builds.array [] (List.forall_mem_nil _)
        · obtain ⟨⟨items, _⟩, read, same⟩ := bind_eq_ok_iff.mp success
          cases same
          exact builds.array items (ofItems _ _ _ read)
      · split at success
        · cases success
          exact builds.object [] (List.forall_mem_nil _)
        · obtain ⟨⟨entries, _⟩, read, same⟩ := bind_eq_ok_iff.mp success
          cases same
          exact builds.object entries (ofEntries _ _ _ read)
      · exact builds.denoted value (readScalar_denoted success)
    · rw [readItems] at success
      obtain ⟨⟨item, after⟩, read, success⟩ := bind_eq_ok_iff.mp success
      simp only at success
      split at success
      · cases success
        exact List.forall_mem_singleton.mpr (ofValue _ _ _ read)
      · obtain ⟨⟨others, _⟩, readOthers, same⟩ := bind_eq_ok_iff.mp success
        cases same
        exact List.forall_mem_cons.mpr ⟨ofValue _ _ _ read, ofItems _ _ _ readOthers⟩
      · cases success
    · rw [readEntries.eq_def] at success
      simp only at success
      split at success
      · obtain ⟨⟨name, afterName⟩, _, success⟩ := bind_eq_ok_iff.mp success
        simp only at success
        split at success
        · obtain ⟨⟨value, after⟩, read, success⟩ := bind_eq_ok_iff.mp success
          simp only at success
          split at success
          · cases success
            exact List.forall_mem_singleton.mpr (ofValue _ _ _ read)
          · obtain ⟨⟨others, _⟩, readOthers, same⟩ := bind_eq_ok_iff.mp success
            cases same
            exact List.forall_mem_cons.mpr ⟨ofValue _ _ _ read, ofEntries _ _ _ readOthers⟩
          · cases success
        · cases success
      · cases success

theorem readChars_holds {text : List Char} {value : Json} (success : readChars text = .ok value) :
    holds value := by
  unfold readChars at success
  split at success
  · cases success
  · obtain ⟨⟨found, rest⟩, read, success⟩ := bind_eq_ok_iff.mp success
    simp only at success
    split at success
    · cases success
      exact (readValue_holds builds _).1 _ _ _ read
    · cases success

end Builds

theorem builds_wellFormed : Builds WellFormed where
  denoted value denoted := by
    cases denoted <;> trivial
  string _ := trivial
  array _ := itemsWellFormed_iff.mpr
  object _ each := wellFormed_ofEntries (entriesWellFormed_iff.mpr each)

/-- The reader builds well-formed JSON only. -/
theorem read_wellFormed {text : List Char} {value : Json} (success : readChars text = .ok value) :
    value.WellFormed := readChars_holds builds_wellFormed success

theorem builds_every {holds : Json → Prop} (denoted : ∀ value, Denoted value → value.Every holds)
    (string : ∀ text, holds (.string text)) : Builds (Every holds) where
  denoted := denoted
  string := string
  array _ := everyItem_iff.mpr
  object _ each := everyEntry_ofEntries (everyEntry_iff.mpr each)

/-- The scalars of what is read are those that texts denote. -/
theorem read_representable {text : List Char} {value : Json} (success : readChars text = .ok value) :
    value.Every Representable := by
  refine readChars_holds (builds_every (fun value denoted => ?_) fun _ => trivial) success
  cases denoted with
  | null => trivial
  | bool _ => trivial
  | int short => exact short
  | double normal => exact normal

end Mson.Json
