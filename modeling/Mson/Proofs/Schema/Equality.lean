import Mathlib.Algebra.Order.Field.Rat
import Mson.Proofs.Datum
import Mson.Proofs.Json.WellFormed

/-!
# Structural equality is equality of values

On JSON without NaN, structural equality holds exactly if both sides denote the same datum. That it
never equates different data is shown beside `Datum`; here the other half, for which a name may not
stand twice in an object: of two entries of a name only the first is found, and the second would have
to equal it too. So structural equality is an equivalence, and comparing all values with the first one
compares every two of them.

The number that a datum holds is a whole number of units of `2 ^ -1074`; `Json.rational?` gives the
number itself, and two numbers have one datum exactly if they are the same rational.
-/
namespace Mson

namespace Json

mutual

/-- No number in the value is NaN. -/
def NanFree : Json → Prop
  | .double value => value ≠ .nan
  | .array items => ItemsNanFree items
  | .object entries => EntriesNanFree entries
  | _ => True

def ItemsNanFree : List Json → Prop
  | [] => True
  | item :: items => NanFree item ∧ ItemsNanFree items

def EntriesNanFree : List (String × Json) → Prop
  | [] => True
  | (_, value) :: entries => NanFree value ∧ EntriesNanFree entries

end

/-- A JSON value as it is read, without NaN. -/
structure Comparable (json : Json) : Prop where
  wellFormed : json.WellFormed
  nanFree : json.NanFree

/-- The exact value of a finite number, be it an integer or not. -/
def rational? : Json → Option ℚ
  | .int value => some value
  | .double (.finite negative significand scale) =>
      some ((if negative then -1 else 1) * significand * 2 ^ scale / 2 ^ Double.unitExponent)
  | _ => none

end Json

/-! ## Numbers -/

theorem powerOf_pos {base : Nat} (positive : 0 < base) (exponent : Nat) :
    0 < powerOf base exponent :=
  Nat.pow_pos positive

theorem unit_ne_zero : (powerOf 2 Double.unitExponent : Int) ≠ 0 :=
  Int.natCast_ne_zero.mpr (powerOf_pos Nat.two_pos _).ne'

theorem cast_powerOf (base exponent : Nat) : (powerOf base exponent : ℚ) = (base : ℚ) ^ exponent :=
  Nat.cast_pow base exponent

theorem Json.datum_eq_number_of_rational? {json : Json} {number : ℚ}
    (exact_ : json.rational? = some number) :
    ∃ units : Int, json.datum = .number units ∧ (units : ℚ) = number * 2 ^ Double.unitExponent := by
  cases json with
  | int value =>
    cases exact_
    refine ⟨value * powerOf 2 Double.unitExponent, rfl, ?_⟩
    rw [Int.cast_mul, Int.cast_natCast, cast_powerOf, Nat.cast_ofNat]
  | double value =>
    cases value with
    | finite negative significand scale =>
      cases exact_
      refine ⟨_, rfl, ?_⟩
      have unit : (2 : ℚ) ^ Double.unitExponent ≠ 0 := pow_ne_zero _ two_ne_zero
      rw [div_mul_cancel₀ _ unit]
      cases negative with
      | false =>
        simp only [Bool.false_eq_true, if_false, Int.cast_mul, Int.cast_natCast, cast_powerOf,
          Nat.cast_ofNat, one_mul]
      | true =>
        simp only [if_true, Int.cast_neg, Int.cast_mul, Int.cast_natCast, cast_powerOf,
          Nat.cast_ofNat, neg_mul, one_mul]
    | _ => cases exact_
  | _ => cases exact_

/-- Numbers denote the same exactly if they are the same rational. -/
theorem Json.datum_eq_iff_of_rational? {left right : Json} {first second : ℚ}
    (ofLeft : left.rational? = some first) (ofRight : right.rational? = some second) :
    left.datum = right.datum ↔ first = second := by
  obtain ⟨leftUnits, leftDatum, leftExact⟩ := datum_eq_number_of_rational? ofLeft
  obtain ⟨rightUnits, rightDatum, rightExact⟩ := datum_eq_number_of_rational? ofRight
  have unit : (2 : ℚ) ^ Double.unitExponent ≠ 0 := pow_ne_zero _ two_ne_zero
  rw [leftDatum, rightDatum, Datum.number.injEq, ← Rat.intCast_inj, leftExact, rightExact]
  exact mul_left_inj' unit

theorem Double.valueEq_of_datum_eq {left right : Double} (number : left ≠ .nan)
    (same : left.datum = right.datum) : left.valueEq right = true := by
  cases left <;> cases right <;>
    simp [Double.datum, Double.valueEq, Double.units?] at number same ⊢ <;> exact same

theorem Double.units?_of_datum_eq {number : Double} {units : Int}
    (same : number.datum = .number units) : number.units? = some units := by
  cases number with
  | nan => cases same
  | infinity negative => cases same
  | finite negative significand scale => exact congrArg some (Datum.number.inj same)

theorem Double.eqInt_of_datum_eq {number : Double} {n : Int}
    (same : number.datum = .number (n * powerOf 2 unitExponent)) : number.eqInt n = true :=
  beq_iff_eq.mpr (Double.units?_of_datum_eq same)

/-! ## Values -/

namespace Value

theorem get?_ofEntries (entries : Mapping Json) (name : String) :
    Mapping.get? (ofEntries entries) name = (Mapping.get? entries name).map ofJson := by
  induction entries with
  | nil => rfl
  | cons entry rest ih =>
    rw [ofEntries, Mapping.get?_cons, Mapping.get?_cons, ih]
    split <;> rfl

/-- Objects of one datum have the same names. -/
theorem mem_names_iff_of_datumEntry_eq {left right : Mapping Value}
    (same : datumEntry left = datumEntry right) {name : String} :
    name ∈ Mapping.names left ↔ name ∈ Mapping.names right := by
  have entry := congrFun same name
  rw [datumEntry_eq, datumEntry_eq] at entry
  rw [← Decidable.not_iff_not, ← Mapping.get?_eq_none_iff, ← Mapping.get?_eq_none_iff,
    ← Option.map_eq_none_iff, entry, Option.map_eq_none_iff]

mutual

/-- JSON that denotes the same is structurally equal. -/
theorem equal_of_datum_eq : (left right : Json) → left.WellFormed → left.NanFree →
    left.datum = right.datum → equal (ofJson left) (ofJson right) = true
  | .null, right, _, _, same => by
    cases right with
    | null => rfl
    | double other => cases other <;> cases same
    | _ => cases same
  | .bool value, right, _, _, same => by
    cases right with
    | bool other => exact beq_iff_eq.mpr (Datum.bool.inj same)
    | double other => cases other <;> cases same
    | _ => cases same
  | .int value, right, _, _, same => by
    cases right with
    | int other =>
      exact beq_iff_eq.mpr (Int.eq_of_mul_eq_mul_right unit_ne_zero (Datum.number.inj same))
    | double other => exact Double.eqInt_of_datum_eq same.symm
    | _ => cases same
  | .double value, right, _, number, same => by
    cases right with
    | int other => exact Double.eqInt_of_datum_eq same
    | double other => exact Double.valueEq_of_datum_eq number same
    | _ => cases value <;> cases same
  | .string text, right, _, _, same => by
    cases right with
    | string other => exact beq_iff_eq.mpr (Datum.string.inj same)
    | double other => cases other <;> cases same
    | _ => cases same
  | .array items, right, wellFormed, nanFree, same => by
    cases right with
    | array others => exact equalItems_of_datum_eq items others wellFormed nanFree (Datum.array.inj same)
    | double other => cases other <;> cases same
    | _ => cases same
  | .object entries, right, wellFormed, nanFree, same => by
    cases right with
    | object others =>
      have entriesSame := Datum.object.inj same
      rw [ofJson, ofJson, equal, Bool.and_eq_true, List.all_eq_true]
      refine ⟨fun name named => ?_, ?_⟩
      · exact Mapping.has_iff.mpr ((mem_names_iff_of_datumEntry_eq entriesSame).mpr named)
      · refine equalEntries_of_datum_eq entries others wellFormed.2 nanFree fun entry member => ?_
        rw [← entriesSame, datumEntry_eq, get?_ofEntries, Mapping.get?_of_mem wellFormed.1 member]
        rfl
    | double other => cases other <;> cases same
    | _ => cases same

theorem equalItems_of_datum_eq : (left right : List Json) → Json.ItemsWellFormed left →
    Json.ItemsNanFree left → datumItems (ofItems left) = datumItems (ofItems right) →
    equalItems (ofItems left) (ofItems right) = true
  | [], right, _, _, same => by
    cases right with
    | nil => rfl
    | cons other others => cases same
  | item :: items, right, wellFormed, nanFree, same => by
    cases right with
    | nil => cases same
    | cons other others =>
      obtain ⟨first, rest⟩ := List.cons.inj same
      rw [ofItems, ofItems, equalItems, Bool.and_eq_true]
      exact ⟨equal_of_datum_eq item other wellFormed.1 nanFree.1 first,
        equalItems_of_datum_eq items others wellFormed.2 nanFree.2 rest⟩

theorem equalEntries_of_datum_eq : (left right : List (String × Json)) →
    Json.EntriesWellFormed left → Json.EntriesNanFree left →
    (∀ entry ∈ left, datumEntry (ofEntries right) entry.1 = some entry.2.datum) →
    equalEntries (ofEntries left) (ofEntries right) = true
  | [], _, _, _, _ => rfl
  | (name, value) :: entries, right, wellFormed, nanFree, same => by
    obtain ⟨first, rest⟩ := List.forall_mem_cons.mp same
    rw [ofEntries, equalEntries, Bool.and_eq_true]
    refine ⟨?_, equalEntries_of_datum_eq entries right wellFormed.2 nanFree.2 rest⟩
    rw [datumEntry_eq, get?_ofEntries, Option.map_map, Option.map_eq_some_iff] at first
    obtain ⟨other, found, denoted⟩ := first
    rw [get?_ofEntries, found]
    exact equal_of_datum_eq value other wellFormed.1 nanFree.1 denoted.symm

end

/-- Structural equality of JSON without NaN is equality of what is denoted. -/
theorem equal_iff_datum_eq {left right : Json} (comparable : left.Comparable) :
    equal (ofJson left) (ofJson right) = true ↔ left.datum = right.datum :=
  ⟨datum_eq_of_equal _ _, equal_of_datum_eq left right comparable.wellFormed comparable.nanFree⟩

/-- Comparing with the first value compares any two. -/
theorem allEqual_iff {values : List Json} (comparable : ∀ value ∈ values, value.Comparable) :
    allEqual (values.map ofJson) = true ↔
      ∀ left ∈ values, ∀ right ∈ values, equal (ofJson left) (ofJson right) = true := by
  cases values with
  | nil => simp [allEqual]
  | cons first rest =>
    have ofFirst := comparable first List.mem_cons_self
    simp only [List.map_cons, allEqual, List.all_map, List.all_eq_true, Function.comp_apply]
    constructor
    · intro each
      have denoted : ∀ value ∈ first :: rest, first.datum = value.datum :=
        List.forall_mem_cons.mpr
          ⟨rfl, fun value later => (equal_iff_datum_eq ofFirst).mp (each value later)⟩
      intro left isLeft right isRight
      exact (equal_iff_datum_eq (comparable left isLeft)).mpr
        ((denoted left isLeft).symm.trans (denoted right isRight))
    · exact fun pairs value later =>
        pairs first List.mem_cons_self value (List.mem_cons_of_mem _ later)

/-- On JSON without NaN, structural equality holds exactly between values that denote the same: it is
an equivalence, and whether all values equal the first says whether any two are equal, in whatever
order they come. -/
theorem equality_of_values :
    (∀ left right : Json, left.Comparable → right.Comparable →
      (equal (ofJson left) (ofJson right) = true ↔ left.datum = right.datum)) ∧
    (∀ (left right : Json) (first second : ℚ), left.rational? = some first →
      right.rational? = some second → (left.datum = right.datum ↔ first = second)) ∧
    Equivalence (fun left right : {json : Json // json.Comparable} =>
      equal (ofJson left) (ofJson right) = true) ∧
    ∀ values : List Json, (∀ value ∈ values, value.Comparable) →
      (allEqual (values.map ofJson) = true ↔
        ∀ left ∈ values, ∀ right ∈ values, equal (ofJson left) (ofJson right) = true) ∧
      ∀ others : List Json, others.Perm values →
        allEqual (others.map ofJson) = allEqual (values.map ofJson) := by
  refine ⟨fun left right comparable _ => equal_iff_datum_eq comparable,
    fun left right first second => Json.datum_eq_iff_of_rational?, ?_, fun values comparable => ?_⟩
  · constructor
    · exact fun json => (equal_iff_datum_eq json.2).mpr rfl
    · intro left right same
      exact (equal_iff_datum_eq right.2).mpr ((equal_iff_datum_eq left.2).mp same).symm
    · intro left middle right first second
      exact (equal_iff_datum_eq left.2).mpr
        (((equal_iff_datum_eq left.2).mp first).trans ((equal_iff_datum_eq middle.2).mp second))
  · refine ⟨allEqual_iff comparable, fun others order => ?_⟩
    have othersComparable : ∀ value ∈ others, value.Comparable :=
      fun value member => comparable value (order.mem_iff.mp member)
    rw [Bool.eq_iff_iff, allEqual_iff comparable, allEqual_iff othersComparable]
    simp only [order.mem_iff]

namespace Respelled

/-! One value in two spellings: its entries in another order, its number an integer and a double. -/

def two : Json := .double (.finite false (powerOf 2 52) 1023)

def first : Json := .object [("a", .int 2), ("b", .array [.bool true, .null])]

def second : Json := .object [("b", .array [.bool true, .null]), ("a", two)]

theorem first_comparable : first.Comparable :=
  ⟨by decide, trivial, ⟨trivial, trivial, trivial⟩, trivial⟩

theorem second_comparable : second.Comparable :=
  ⟨by decide, ⟨trivial, trivial, trivial⟩, Double.noConfusion, trivial⟩

theorem equality_of_values_respelled :
    (∀ value ∈ [first, second], value.Comparable) ∧ first.datum = second.datum ∧
      two.rational? = some 2 ∧ allEqual ([first, second].map ofJson) = true ∧
      allEqual ([second, first].map ofJson) = true := by
  obtain ⟨sameDatum, sameNumber, -, allSame⟩ := equality_of_values
  have comparable : ∀ value ∈ [first, second], value.Comparable := by
    simp [first_comparable, second_comparable]
  obtain ⟨equalValues, equalNumbers, collapsed⟩ : equal (ofJson first) (ofJson second) = true ∧
      equal (ofJson two) (ofJson (.int 2)) = true ∧
        allEqual ([first, second].map ofJson) = true := by
    decide +kernel
  have numberDatum := (sameDatum two (.int 2) ⟨trivial, Double.noConfusion⟩ ⟨trivial, trivial⟩).mp
    equalNumbers
  have number := (sameNumber two (.int 2) _ 2 rfl rfl).mp numberDatum
  refine ⟨comparable, (sameDatum _ _ first_comparable second_comparable).mp equalValues,
    congrArg some number, collapsed, ?_⟩
  rw [(allSame _ comparable).2 [second, first] (List.Perm.swap _ _ _), collapsed]

end Respelled

end Value

end Mson
