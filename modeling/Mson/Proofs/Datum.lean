import Mson.Proofs.Mapping
import Mson.Schema.Equality

/-!
# What values denote

A datum is a JSON value without its spelling: an object is a function from names, so that the order
of its entries is gone, and a number is its exact value in the smallest unit of the binary format,
whether it was written as an integer or not. Content that holds elements is no JSON and denotes
`element`, apart from the empty collection, which is the empty array.

Two values denote the same exactly if their data are equal. `datum_eq_of_equal` says that structural
equality never equates values that denote different data; it needs nothing about how the values came
about.
-/
namespace Mson

/-- What a value denotes. -/
inductive Datum where
  | null
  | bool (value : Bool)
  /-- A number, in units of `2 ^ -1074`. -/
  | number (units : Int)
  | infinity (negative : Bool)
  | nan
  | string (value : String)
  | array (items : List Datum)
  | object (entry : String → Option Datum)
  /-- Content that has no JSON form. -/
  | element

def Double.datum : Double → Datum
  | .nan => .nan
  | .infinity negative => .infinity negative
  | .finite negative significand scale =>
      let magnitude : Int := significand * powerOf 2 scale
      .number (if negative then -magnitude else magnitude)

namespace Value

mutual

/-- The datum of a value. -/
def datum : Value → Datum
  | .null => .null
  | .bool value => .bool value
  | .int value => .number (value * powerOf 2 Double.unitExponent)
  | .double value => value.datum
  | .string value => .string value
  | .array items => .array (datumItems items)
  | .object entries => .object (datumEntry entries)
  | .collection [] => .array []
  | .collection (_ :: _) => .element
  | .member _ _ => .element

def datumItems : List Value → List Datum
  | [] => []
  | item :: items => datum item :: datumItems items

/-- What the entry under a name denotes. -/
def datumEntry : List (String × Value) → String → Option Datum
  | [], _ => none
  | (name, value) :: entries, wanted =>
      if name = wanted then some (datum value) else datumEntry entries wanted

end

theorem datumEntry_eq (entries : Mapping Value) (name : String) :
    datumEntry entries name = (Mapping.get? entries name).map datum := by
  induction entries with
  | nil => rfl
  | cons entry rest ih =>
    obtain ⟨other, value⟩ := entry
    rw [Mapping.get?_cons, datumEntry, ih]
    split <;> rfl

end Value

/-- The datum of a JSON value. -/
def Json.datum (value : Json) : Datum := (Value.ofJson value).datum

theorem Double.datum_of_units {number : Double} {units : Int} (finite : number.units? = some units) :
    number.datum = .number units := by
  cases number with
  | nan => cases finite
  | infinity negative => cases finite
  | finite negative significand scale =>
    simp only [Double.units?, Option.some.injEq] at finite
    simp only [Double.datum, finite]

theorem Double.datum_eq_of_valueEq {left right : Double} (same : left.valueEq right = true) :
    left.datum = right.datum := by
  by_cases infinities : ∃ a b, left = .infinity a ∧ right = .infinity b
  · obtain ⟨a, b, rfl, rfl⟩ := infinities
    simp only [Double.valueEq, beq_iff_eq] at same
    rw [same]
  · unfold Double.valueEq at same
    split at same
    · rename_i a b
      exact absurd ⟨a, b, rfl, rfl⟩ infinities
    · split at same
      · rename_i a b leftUnits rightUnits
        rw [Double.datum_of_units leftUnits, Double.datum_of_units rightUnits, beq_iff_eq.mp same]
      · cases same

theorem Double.datum_eq_of_eqInt {number : Double} {n : Int} (same : number.eqInt n = true) :
    number.datum = .number (n * powerOf 2 Double.unitExponent) :=
  Double.datum_of_units (beq_iff_eq.mp same)

namespace Value

mutual

/-- Values that structural equality takes for equal denote the same. -/
theorem datum_eq_of_equal :
    ∀ left right : Value, equal left right = true → left.datum = right.datum
  | .null, right, same => by
    cases right <;> simp [equal] at same ⊢
  | .bool left, right, same => by
    cases right <;> simp [equal] at same
    simp [datum, same]
  | .int left, right, same => by
    cases right <;> simp [equal] at same
    · rw [same]
    · simp only [datum, Double.datum_eq_of_eqInt same]
  | .double left, right, same => by
    cases right <;> simp [equal] at same
    · simp only [datum, Double.datum_eq_of_eqInt same]
    · simp only [datum, Double.datum_eq_of_valueEq same]
  | .string left, right, same => by
    cases right <;> simp [equal] at same
    simp [datum, same]
  | .array left, right, same => by
    cases right with
    | array right =>
      simp only [equal] at same
      simp only [datum, datumItems_eq_of_equal left right same]
    | collection right =>
      simp only [equal, Bool.and_eq_true, List.isEmpty_iff] at same
      obtain ⟨rfl, rfl⟩ := same
      rfl
    | _ => simp [equal] at same
  | .object left, right, same => by
    cases right with
    | object right =>
      simp only [equal, Bool.and_eq_true, List.all_eq_true, Mapping.has_iff] at same
      simp only [datum, Datum.object.injEq]
      funext name
      by_cases named : name ∈ Mapping.names left
      · exact datumEntry_eq_of_equal left right same.2 name named
      · have absent : name ∉ Mapping.names right := fun there => named (same.1 name there)
        rw [datumEntry_eq, datumEntry_eq, Mapping.get?_eq_none_iff.mpr named,
          Mapping.get?_eq_none_iff.mpr absent]
    | _ => simp [equal] at same
  | .collection left, right, same => by
    cases right with
    | array right =>
      simp only [equal, Bool.and_eq_true, List.isEmpty_iff] at same
      obtain ⟨rfl, rfl⟩ := same
      rfl
    | collection right =>
      cases left <;> cases right <;> simp [equal, Element.looseEqItems, datum] at same ⊢
    | _ => simp [equal] at same
  | .member key value, right, same => by
    cases right <;> simp [equal] at same
    simp [datum]

theorem datumItems_eq_of_equal :
    ∀ left right : List Value, equalItems left right = true → datumItems left = datumItems right
  | [], right, same => by
    cases right <;> simp [equalItems] at same ⊢
  | left :: lefts, right, same => by
    cases right with
    | nil => simp [equalItems] at same
    | cons right rights =>
      simp only [equalItems, Bool.and_eq_true] at same
      simp only [datumItems, datum_eq_of_equal left right same.1,
        datumItems_eq_of_equal lefts rights same.2]

theorem datumEntry_eq_of_equal :
    ∀ (left : List (String × Value)) (right : Mapping Value), equalEntries left right = true →
      ∀ name ∈ Mapping.names left, datumEntry left name = datumEntry right name
  | [], _, _, _, named => by simp at named
  | (name, left) :: lefts, right, same, wanted, named => by
    simp only [equalEntries, Bool.and_eq_true] at same
    obtain ⟨first, rest⟩ := same
    rw [datumEntry]
    split
    · rename_i here
      subst here
      split at first
      · rename_i found present
        rw [datumEntry_eq right, present, datum_eq_of_equal left found first]
        rfl
      · cases first
    · rename_i elsewhere
      rw [Mapping.names_cons, List.mem_cons] at named
      exact datumEntry_eq_of_equal lefts right rest wanted
        (named.resolve_left (Ne.symm elsewhere))

end

end Value

end Mson
