import Mathlib.Tactic.Ring
import Mathlib.Algebra.Order.Ring.Nat
import Mson.Number.Double

/-!
# Rounding to binary64

Rounding a ratio of units depends on the ratio only (`ofUnitRatio_scale`), leaves alone a number that
is kept in the form that rounding gives it (`ofUnitRatio_exact`), and always gives this form
(`isNormal_ofUnitRatio`). A decimal is rounded in this way whatever its exponent: the bounds by which
`ofDecimal` settles exponents far outside the range do not change what it gives (`ofDecimal_eq`). So a
decimal may be written with zeros at its end, or without them (`ofDecimal_shift`).
-/
namespace Mson

theorem powerOf_eq (base exponent : Nat) : powerOf base exponent = base ^ exponent := rfl

namespace Double

variable {negative : Bool} {numerator denominator : Nat}

/-! ## Scale -/

/-- The scale at which a ratio has a significand of 53 bits, or the least one. -/
structure IsScale (numerator denominator scale : Nat) : Prop where
  below : numerator < denominator * 2 ^ (53 + scale)
  full : scale = 0 ∨ denominator * 2 ^ (52 + scale) ≤ numerator

theorem isScale_scaleOfRatio (numerator : Nat) (positive : 0 < denominator) :
    IsScale numerator denominator (scaleOfRatio numerator denominator) := by
  have logBelow : 2 ^ denominator.log2 ≤ denominator := Nat.log2_self_le positive.ne'
  have logAbove : denominator < 2 ^ (denominator.log2 + 1) := Nat.lt_log2_self
  unfold scaleOfRatio
  simp only
  by_cases small : numerator < denominator * powerOf 2 significandBits
  · rw [if_pos small]
    exact ⟨small, .inl rfl⟩
  rw [if_neg small]
  have nonzero : numerator ≠ 0 := by
    rintro rfl
    exact small (Nat.mul_pos positive (by decide))
  have numeratorBelow : 2 ^ numerator.log2 ≤ numerator := Nat.log2_self_le nonzero
  have numeratorAbove : numerator < 2 ^ (numerator.log2 + 1) := Nat.lt_log2_self
  -- the logarithms are far enough apart for their difference not to be cut off
  have apart : denominator.log2 + 53 ≤ numerator.log2 := by
    by_contra close
    have := calc
      numerator < 2 ^ (numerator.log2 + 1) := numeratorAbove
      _ ≤ 2 ^ (denominator.log2 + 53) := Nat.pow_le_pow_right (by decide) (by omega)
      _ = 2 ^ denominator.log2 * 2 ^ 53 := Nat.pow_add ..
      _ ≤ denominator * 2 ^ 53 := Nat.mul_le_mul_right _ logBelow
    exact small this
  obtain ⟨estimate, gap⟩ := Nat.exists_eq_add_of_le apart
  have estimated : numerator.log2 - denominator.log2 - significandBits = estimate := by
    rw [significandBits]
    omega
  rw [estimated]
  by_cases fits : numerator < denominator * powerOf 2 significandBits * powerOf 2 estimate
  · rw [if_pos fits]
    refine ⟨by rwa [Nat.pow_add, ← Nat.mul_assoc], .inr ?_⟩
    calc
      denominator * 2 ^ (52 + estimate)
        ≤ 2 ^ (denominator.log2 + 1) * 2 ^ (52 + estimate) := Nat.mul_le_mul_right _ logAbove.le
      _ = 2 ^ numerator.log2 := by rw [← Nat.pow_add, gap]; congr 1; omega
      _ ≤ numerator := numeratorBelow
  · rw [if_neg fits]
    refine ⟨?_, .inr ?_⟩
    · calc
        numerator < 2 ^ (numerator.log2 + 1) := numeratorAbove
        _ = 2 ^ denominator.log2 * 2 ^ (53 + (estimate + 1)) := by
          rw [← Nat.pow_add, gap]; congr 1; omega
        _ ≤ denominator * 2 ^ (53 + (estimate + 1)) := Nat.mul_le_mul_right _ logBelow
    · have same : denominator * 2 ^ (52 + (estimate + 1)) = denominator * 2 ^ 53 * 2 ^ estimate := by
        ring
      rw [same]
      exact Nat.le_of_not_lt fits

theorem IsScale.unique {scale other : Nat} (first : IsScale numerator denominator scale)
    (second : IsScale numerator denominator other) : scale = other := by
  -- a full significand at the larger scale has too many bits at the smaller one
  have not_lt : ∀ {small large : Nat}, IsScale numerator denominator small →
      IsScale numerator denominator large → ¬ small < large := by
    intro small large isSmall isLarge less
    rcases isLarge.full with zero | full
    · omega
    · have wide : denominator * 2 ^ (53 + small) ≤ denominator * 2 ^ (52 + large) :=
        Nat.mul_le_mul_left _ (Nat.pow_le_pow_right (by decide) (by omega))
      exact absurd isSmall.below (by omega)
  have noLess := not_lt first second
  have noMore := not_lt second first
  omega

theorem IsScale.eq_scaleOfRatio {scale : Nat} (positive : 0 < denominator)
    (isScale : IsScale numerator denominator scale) : scaleOfRatio numerator denominator = scale :=
  (isScale_scaleOfRatio numerator positive).unique isScale

/-! ## Quotients -/

theorem roundQuotient_scale {factor : Nat} (positive : 0 < factor) (numerator denominator : Nat) :
    roundQuotient (factor * numerator) (factor * denominator) =
      roundQuotient numerator denominator := by
  have remainders : ∀ twice bound : Nat, (2 * (factor * twice) < factor * bound ↔ 2 * twice < bound) ∧
      (factor * bound < 2 * (factor * twice) ↔ bound < 2 * twice) := by
    intro twice bound
    rw [Nat.mul_left_comm]
    exact ⟨Nat.mul_lt_mul_left positive, Nat.mul_lt_mul_left positive⟩
  simp only [roundQuotient, Nat.mul_div_mul_left _ _ positive, Nat.mul_mod_mul_left,
    (remainders _ _).1, (remainders _ _).2]

theorem roundQuotient_mul {factor : Nat} (positive : 0 < factor) (whole : Nat) :
    roundQuotient (whole * factor) factor = whole := by
  simp [roundQuotient, positive]

theorem roundQuotient_le {bound : Nat} (positive : 0 < denominator)
    (below : numerator < denominator * bound) : roundQuotient numerator denominator ≤ bound := by
  have quotient : numerator / denominator < bound :=
    (Nat.div_lt_iff_lt_mul positive).mpr (by rwa [Nat.mul_comm])
  unfold roundQuotient
  simp only
  split
  · omega
  · split <;> omega

theorem le_roundQuotient {bound : Nat} (positive : 0 < denominator)
    (above : denominator * bound ≤ numerator) : bound ≤ roundQuotient numerator denominator := by
  have quotient : bound ≤ numerator / denominator :=
    (Nat.le_div_iff_mul_le positive).mpr (by rwa [Nat.mul_comm])
  unfold roundQuotient
  simp only
  split
  · omega
  · split <;> omega

/-! ## Numbers in normal form -/

/-- Whether a number is kept in the form that rounding gives it: 53 bits unless it is at the least
scale. -/
def IsNormal : Double → Prop
  | .finite _ significand scale =>
      significand < 2 ^ 53 ∧ scale ≤ maxScale ∧ (scale = 0 ∨ 2 ^ 52 ≤ significand)
  | _ => True

instance : DecidablePred IsNormal
  | .nan => .isTrue trivial
  | .infinity _ => .isTrue trivial
  | .finite _ significand scale =>
      inferInstanceAs (Decidable (significand < 2 ^ 53 ∧ scale ≤ maxScale ∧
        (scale = 0 ∨ 2 ^ 52 ≤ significand)))

theorem isNormal_ofRounded {significand scale : Nat} (bounded : significand ≤ 2 ^ 53)
    (full : scale = 0 ∨ 2 ^ 52 ≤ significand) : (ofRounded negative significand scale).IsNormal := by
  unfold ofRounded
  by_cases narrow : significand < powerOf 2 significandBits
  · rw [if_pos narrow]
    by_cases large : maxScale < scale
    · rw [if_pos large]
      trivial
    · rw [if_neg large]
      exact ⟨narrow, Nat.le_of_not_lt large, full⟩
  · rw [if_neg narrow]
    by_cases large : maxScale < scale + 1
    · rw [if_pos large]
      trivial
    · rw [if_neg large]
      have wide : 2 ^ 53 ≤ significand := Nat.le_of_not_lt narrow
      exact ⟨by omega, Nat.le_of_not_lt large, .inr (by omega)⟩

theorem isNormal_ofUnitRatio (positive : 0 < denominator) :
    (ofUnitRatio negative numerator denominator).IsNormal := by
  have isScale := isScale_scaleOfRatio numerator positive
  have scaled : ∀ scale bits : Nat,
      denominator * 2 ^ (bits + scale) = denominator * powerOf 2 scale * 2 ^ bits := by
    intro scale bits
    rw [powerOf_eq, Nat.pow_add, Nat.mul_assoc, Nat.mul_comm (2 ^ bits)]
  have positiveUnit : 0 < denominator * powerOf 2 (scaleOfRatio numerator denominator) :=
    Nat.mul_pos positive (Nat.pow_pos (by decide))
  refine isNormal_ofRounded (roundQuotient_le positiveUnit ?_) (isScale.full.imp_right fun full => ?_)
  · rw [← scaled]
    exact isScale.below
  · refine le_roundQuotient positiveUnit ?_
    rwa [← scaled]

/-- A number in normal form is rounded to itself. -/
theorem ofUnitRatio_exact {significand scale : Nat}
    (normal : (finite negative significand scale).IsNormal) :
    ofUnitRatio negative (significand * 2 ^ scale) 1 = finite negative significand scale := by
  obtain ⟨narrow, bounded, full⟩ := normal
  have unit : 0 < 2 ^ scale := Nat.pow_pos (by decide)
  have isScale : IsScale (significand * 2 ^ scale) 1 scale := by
    rw [← Nat.mul_lt_mul_right unit] at narrow
    refine ⟨by rwa [Nat.one_mul, Nat.pow_add], full.imp_right fun full => ?_⟩
    rw [Nat.one_mul, Nat.pow_add]
    exact Nat.mul_le_mul_right _ full
  simp only [ofUnitRatio, isScale.eq_scaleOfRatio Nat.one_pos, powerOf_eq, Nat.one_mul,
    roundQuotient_mul unit, ofRounded, significandBits]
  rw [if_pos narrow, if_neg (Nat.not_lt.mpr bounded)]

/-- Rounding depends on the ratio only. -/
theorem ofUnitRatio_scale {factor : Nat} (positive : 0 < factor) (numerator : Nat)
    (denominatorPositive : 0 < denominator) :
    ofUnitRatio negative (factor * numerator) (factor * denominator) =
      ofUnitRatio negative numerator denominator := by
  have isScale := isScale_scaleOfRatio numerator denominatorPositive
  have scaled : IsScale (factor * numerator) (factor * denominator)
      (scaleOfRatio numerator denominator) := by
    refine ⟨?_, isScale.full.imp_right fun full => ?_⟩
    · rw [Nat.mul_assoc]
      exact (Nat.mul_lt_mul_left positive).mpr isScale.below
    · rw [Nat.mul_assoc]
      exact Nat.mul_le_mul_left _ full
  simp only [ofUnitRatio, scaled.eq_scaleOfRatio (Nat.mul_pos positive denominatorPositive),
    Nat.mul_assoc factor, roundQuotient_scale positive]

/-- Less than half a unit is rounded to zero. -/
theorem ofUnitRatio_of_small (small : 2 * numerator < denominator) :
    ofUnitRatio negative numerator denominator = zero negative := by
  have isScale : IsScale numerator denominator 0 := ⟨by omega, .inl rfl⟩
  have rounds : roundQuotient numerator (denominator * powerOf 2 0) = 0 := by
    have below : numerator < denominator := by omega
    simp only [roundQuotient, powerOf_eq, Nat.pow_zero, Nat.mul_one, Nat.div_eq_of_lt below,
      Nat.mod_eq_of_lt below]
    rw [if_pos small]
  simp only [ofUnitRatio, isScale.eq_scaleOfRatio (by omega), rounds]
  rfl

/-- What would need more than the largest scale is infinite. -/
theorem ofUnitRatio_of_large (positive : 0 < denominator)
    (large : denominator * 2 ^ (53 + maxScale) ≤ numerator) :
    ofUnitRatio negative numerator denominator = .infinity negative := by
  have isScale := isScale_scaleOfRatio numerator positive
  have beyond : maxScale < scaleOfRatio numerator denominator := by
    by_contra within
    have wide : denominator * 2 ^ (53 + scaleOfRatio numerator denominator) ≤
        denominator * 2 ^ (53 + maxScale) :=
      Nat.mul_le_mul_left _ (Nat.pow_le_pow_right (by decide) (by omega))
    exact absurd isScale.below (by omega)
  simp only [ofUnitRatio, ofRounded]
  rw [if_pos beyond, if_pos (Nat.lt_succ_of_lt beyond), ite_self]

/-! ## Decimals -/

/-- Ten is a little more than `2 ^ 3.3`. -/
theorem two_pow_le_ten_pow {bits exponent : Nat} (tens extra : Nat)
    (most : bits ≤ 33 * tens + extra) (least : 10 * tens + extra ≤ exponent) :
    2 ^ bits ≤ 10 ^ exponent := by
  have power : 2 ^ (33 * tens + extra) ≤ 10 ^ (10 * tens + extra) := by
    rw [Nat.pow_add, Nat.pow_add, Nat.pow_mul, Nat.pow_mul]
    exact Nat.mul_le_mul (Nat.pow_le_pow_left (by decide) tens)
      (Nat.pow_le_pow_left (by decide) extra)
  exact (Nat.pow_le_pow_right (by decide) most).trans
    (power.trans (Nat.pow_le_pow_right (by decide) least))

theorem large_of_exponent {digits : Nat} {exponent : Int} (nonzero : digits ≠ 0)
    (large : 310 < exponent) :
    1 * 2 ^ (53 + maxScale) ≤
      digits * powerOf 10 exponent.toNat * powerOf 2 unitExponent := by
  obtain ⟨bits, most, exponents⟩ : ∃ bits, bits ≤ 33 * 31 + 1 ∧
      53 + maxScale = bits + unitExponent := ⟨1024, by decide, rfl⟩
  have power : 2 ^ bits ≤ 10 ^ exponent.toNat := two_pow_le_ten_pow 31 1 most (by omega)
  rw [powerOf_eq, powerOf_eq, Nat.one_mul, exponents, Nat.pow_add]
  refine Nat.mul_le_mul_right _ (power.trans ?_)
  exact Nat.le_mul_of_pos_left _ (Nat.pos_of_ne_zero nonzero)

theorem small_of_exponent {digits : Nat} {exponent : Int}
    (small : exponent + digits.log2 + 1 < -330) :
    2 * (digits * powerOf 2 unitExponent) < powerOf 10 (-exponent).toNat := by
  obtain ⟨rest, enough, parts⟩ : ∃ rest, 330 ≤ rest ∧
      (-exponent).toNat = digits.log2 + 1 + rest :=
    ⟨(-exponent).toNat - (digits.log2 + 1), by omega, by omega⟩
  have unit : 2 ^ (unitExponent + 1) ≤ 10 ^ rest := two_pow_le_ten_pow 33 0 (by decide) enough
  rw [powerOf_eq, powerOf_eq, parts]
  calc
    2 * (digits * 2 ^ unitExponent) = digits * 2 ^ (unitExponent + 1) := by
      rw [Nat.pow_succ, Nat.mul_left_comm, Nat.mul_comm 2]
    _ < 2 ^ (digits.log2 + 1) * 2 ^ (unitExponent + 1) :=
      (Nat.mul_lt_mul_right (Nat.pow_pos (by decide))).mpr Nat.lt_log2_self
    _ ≤ 10 ^ (digits.log2 + 1) * 10 ^ rest :=
      Nat.mul_le_mul (Nat.pow_le_pow_left (by decide) _) unit
    _ = 10 ^ (digits.log2 + 1 + rest) := (Nat.pow_add ..).symm

/-- A decimal is rounded as the ratio that it is, whatever its exponent. -/
theorem ofDecimal_eq (negative : Bool) (digits : Nat) (exponent : Int) :
    ofDecimal negative digits exponent =
      ofUnitRatio negative (digits * powerOf 10 exponent.toNat * powerOf 2 unitExponent)
        (powerOf 10 (-exponent).toNat) := by
  have one : powerOf 10 0 = 1 := rfl
  have positive : 0 < powerOf 10 (-exponent).toNat := Nat.pow_pos (by decide)
  unfold ofDecimal
  by_cases none : digits = 0
  · rw [if_pos none, none, Nat.zero_mul, Nat.zero_mul, ofUnitRatio_of_small (by omega)]
  rw [if_neg none]
  by_cases large : 310 < exponent
  · have whole : (-exponent).toNat = 0 := by omega
    rw [if_pos large, whole, one,
      ofUnitRatio_of_large Nat.one_pos (large_of_exponent none large)]
  rw [if_neg large]
  by_cases small : exponent + digits.log2 + 1 < -330
  · have fraction : exponent.toNat = 0 := by omega
    rw [if_pos small, fraction, one, Nat.mul_one, ofUnitRatio_of_small (small_of_exponent small)]
  rw [if_neg small]
  by_cases whole : 0 ≤ exponent
  · have exact_ : (-exponent).toNat = 0 := by omega
    rw [if_pos whole, exact_, one]
  · have fraction : exponent.toNat = 0 := by omega
    rw [if_neg whole, fraction, one, Nat.mul_one]

theorem isNormal_ofDecimal (negative : Bool) (digits : Nat) (exponent : Int) :
    (ofDecimal negative digits exponent).IsNormal := by
  rw [ofDecimal_eq]
  exact isNormal_ofUnitRatio (Nat.pow_pos (by decide))

/-- Zeros at the end of a decimal may be written or left to the exponent. -/
theorem ofDecimal_shift (negative : Bool) (digits : Nat) (exponent : Int) :
    ofDecimal negative (10 * digits) exponent = ofDecimal negative digits (exponent + 1) := by
  rw [ofDecimal_eq, ofDecimal_eq]
  by_cases whole : 0 ≤ exponent
  · have sum : (exponent + 1).toNat = exponent.toNat + 1 := by omega
    have exact_ : (-exponent).toNat = (-(exponent + 1)).toNat := by omega
    rw [sum, exact_, powerOf_eq 10 (_ + 1), Nat.pow_succ, ← powerOf_eq, Nat.mul_assoc 10,
      Nat.mul_comm 10, Nat.mul_assoc digits]
  · have fraction : exponent.toNat = (exponent + 1).toNat := by omega
    have sum : (-exponent).toNat = (-(exponent + 1)).toNat + 1 := by omega
    rw [fraction, sum, powerOf_eq 10 (_ + 1), Nat.pow_succ, ← powerOf_eq, Nat.mul_comm _ 10,
      Nat.mul_assoc 10, Nat.mul_assoc 10]
    exact ofUnitRatio_scale (by decide) _ (Nat.pow_pos (by decide))

theorem ofDecimal_shift_pow (negative : Bool) (digits zeros : Nat) (exponent : Int) :
    ofDecimal negative (10 ^ zeros * digits) exponent =
      ofDecimal negative digits (exponent + zeros) := by
  induction zeros generalizing exponent with
  | zero => simp
  | succ zeros ih =>
    rw [Nat.pow_succ', Nat.mul_assoc, ofDecimal_shift, ih]
    congr 1
    omega

theorem ofDecimal_zero (negative : Bool) (exponent : Int) :
    ofDecimal negative 0 exponent = zero negative := if_pos rfl

end Double

end Mson
