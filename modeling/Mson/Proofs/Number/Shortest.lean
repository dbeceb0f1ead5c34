import Mson.Number.Decimal
import Mson.Proofs.Number.Rounding

/-!
# Shortest decimals read back

The shortest decimal of a finite number is rounded to that number again (`ofDecimal_shortest`), and
every finite number has one (`exists_shortest_iff`). Nothing is known here of how short it is.
-/
namespace Mson

theorem Decimal.ofDecimal_trim (negative : Bool) (limit : Nat) (decimal : Decimal) :
    Double.ofDecimal negative (decimal.trim limit).digits (decimal.trim limit).exponent =
      Double.ofDecimal negative decimal.digits decimal.exponent := by
  induction limit generalizing decimal with
  | zero => rfl
  | succ limit ih =>
    rw [Decimal.trim]
    split
    · rename_i ends
      have whole : 10 * (decimal.digits / 10) = decimal.digits :=
        Nat.mul_div_cancel' (Nat.dvd_of_mod_eq_zero ends.2)
      rw [ih, ← Double.ofDecimal_shift, whole]
    · rfl

namespace Double

/-- Whether a number has digits. -/
def IsFinite : Double → Prop
  | .finite .. => True
  | _ => False

instance : DecidablePred IsFinite
  | .finite .. => .isTrue trivial
  | .nan | .infinity _ => .isFalse id

variable {number : Double}

theorem ofDecimal_firstReadingBack {units : Nat} {leading : Int} {grids : Nat} {found : Decimal}
    (first : firstReadingBack number units leading grids = some found) :
    ofDecimal number.isNegative found.digits found.exponent = number := by
  obtain ⟨place, -, onGrid⟩ := List.exists_of_findSome?_eq_some first
  have readsBack := List.find?_some onGrid
  exact of_decide_eq_true readsBack

/-- A whole number of units is the ratio that its exact decimal is. -/
theorem ofDecimal_exactDecimal (negative : Bool) (units : Nat) :
    ofDecimal negative (exactDecimal units).digits (exactDecimal units).exponent =
      ofUnitRatio negative units 1 := by
  have ratio : ∀ n, ofUnitRatio negative (units * powerOf 5 n * powerOf 10 0 * powerOf 2 n)
      (powerOf 10 n) = ofUnitRatio negative units 1 := by
    intro n
    have ten : powerOf 10 n = powerOf 5 n * powerOf 2 n := Nat.mul_pow 5 2 n
    have positive : 0 < powerOf 5 n * powerOf 2 n :=
      Nat.mul_pos (Nat.pow_pos (by decide)) (Nat.pow_pos (by decide))
    rw [← ofUnitRatio_scale positive units Nat.one_pos, ten, Nat.mul_one, powerOf_eq 10 0,
      Nat.pow_zero, Nat.mul_one, Nat.mul_assoc, Nat.mul_comm units]
  rw [ofDecimal_eq]
  simp only [exactDecimal, Int.neg_neg, Int.toNat_neg_natCast, Int.toNat_natCast, ratio]

/-- A finite number in normal form is what its shortest decimal is rounded to. -/
theorem ofDecimal_shortest {decimal : Decimal} (normal : number.IsNormal)
    (shortest : number.shortest? = some decimal) :
    ofDecimal number.isNegative decimal.digits decimal.exponent = number := by
  cases number with
  | nan => cases shortest
  | infinity => cases shortest
  | finite negative significand scale =>
    have magnitude : (finite negative significand scale).units?.map Int.natAbs =
        some (significand * 2 ^ scale) := by
      cases negative <;> simp [units?, powerOf_eq, Int.natAbs_mul, Int.natAbs_pow]
    obtain ⟨value, isValue, isMagnitude⟩ := Option.map_eq_some_iff.mp magnitude
    simp only [shortest?, isValue, isMagnitude] at shortest
    split at shortest
    · rename_i none
      cases shortest
      have zero_ : significand = 0 := (Nat.mul_eq_zero.mp none).resolve_right
        (Nat.pow_pos (by decide)).ne'
      have least : scale = 0 := normal.2.2.resolve_right (by simp [zero_])
      rw [zero_, least]
      rfl
    · rw [← Option.some.inj shortest, Decimal.ofDecimal_trim]
      cases found : firstReadingBack (finite negative significand scale) (significand * 2 ^ scale)
        (decimalExponent (significand * 2 ^ scale)) 17 with
      | some short =>
        rw [Option.getD_some]
        exact ofDecimal_firstReadingBack found
      | none =>
        rw [Option.getD_none, ofDecimal_exactDecimal]
        exact ofUnitRatio_exact normal

theorem exists_shortest_iff : (∃ decimal, number.shortest? = some decimal) ↔ number.IsFinite := by
  cases number with
  | nan => simp [shortest?, units?, IsFinite]
  | infinity => simp [shortest?, units?, IsFinite]
  | finite negative significand scale =>
    refine iff_of_true ?_ trivial
    simp only [shortest?, units?, ← apply_ite some]
    exact ⟨_, rfl⟩

end Double

end Mson
