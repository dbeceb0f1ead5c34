import Mson.Number.Power

/-!
# Binary64 numbers

A binary64 number is kept as a sign, a significand and a power of two, so that every statement about
its value is a statement about integers. `ofDecimal` rounds an exact decimal to the nearest such
number, a tie going to the even significand; `units` is the exact value in the smallest unit the
format has, `2 ^ -1074`, by which numbers of different scale are compared.
-/
namespace Mson

/-- A binary64 number; `finite negative significand scale` is `± significand * 2 ^ scale` units of
`2 ^ -1074`. All NaNs are one. -/
inductive Double where
  | nan
  | infinity (negative : Bool)
  | finite (negative : Bool) (significand scale : Nat)
  deriving DecidableEq, Repr, Inhabited

namespace Double

/-- The power of two that the unit of `finite` stands for. -/
def unitExponent : Nat := 1074

/-- Significands have at most 53 bits. -/
def significandBits : Nat := 53

/-- The largest scale of a finite number: its value stays below `2 ^ 1024`. -/
def maxScale : Nat := 2045

def zero (negative : Bool) : Double := .finite negative 0 0

/-- The integer nearest to `numerator / denominator`; a half goes to the even neighbour. -/
def roundQuotient (numerator denominator : Nat) : Nat :=
  let quotient := numerator / denominator
  let twice := 2 * (numerator % denominator)
  if twice < denominator then quotient
  else if denominator < twice then quotient + 1
  else quotient + quotient % 2

/-- The scale at which `numerator / denominator` units have a significand of exactly 53 bits, or
zero where the value is too small to have that many. -/
def scaleOfRatio (numerator denominator : Nat) : Nat :=
  let estimate := numerator.log2 - denominator.log2 - significandBits
  let limit := denominator * powerOf 2 significandBits
  if numerator < limit then 0
  else if numerator < limit * powerOf 2 estimate then estimate
  else estimate + 1

/-- Brings a rounded significand back to 53 bits and replaces a number that is too large. -/
def ofRounded (negative : Bool) (significand scale : Nat) : Double :=
  if significand < powerOf 2 significandBits then
    if maxScale < scale then .infinity negative else .finite negative significand scale
  else if maxScale < scale + 1 then .infinity negative
  else .finite negative (significand / 2) (scale + 1)

/-- The number nearest to `numerator / denominator` units. -/
def ofUnitRatio (negative : Bool) (numerator denominator : Nat) : Double :=
  let scale := scaleOfRatio numerator denominator
  ofRounded negative (roundQuotient numerator (denominator * powerOf 2 scale)) scale

/-- The number nearest to `± digits * 10 ^ exponent`. Exponents far outside the format's range are
settled without building the power of ten. -/
def ofDecimal (negative : Bool) (digits : Nat) (exponent : Int) : Double :=
  if digits = 0 then zero negative
  else if 310 < exponent then .infinity negative
  else if exponent + digits.log2 + 1 < -330 then zero negative
  else if 0 ≤ exponent then
    ofUnitRatio negative (digits * powerOf 10 exponent.toNat * powerOf 2 unitExponent) 1
  else
    ofUnitRatio negative (digits * powerOf 2 unitExponent) (powerOf 10 (-exponent).toNat)

def isNegative : Double → Bool
  | .nan => false
  | .infinity negative => negative
  | .finite negative _ _ => negative

/-- The exact value of a finite number, in units of `2 ^ -1074`. -/
def units? : Double → Option Int
  | .finite negative significand scale =>
      let magnitude : Int := significand * powerOf 2 scale
      some (if negative then -magnitude else magnitude)
  | _ => none

/-- The number nearest to a whole number of units. -/
def ofUnits (units : Int) : Double := ofUnitRatio (units < 0) units.natAbs 1

def negate : Double → Double
  | .nan => .nan
  | .infinity negative => .infinity !negative
  | .finite negative significand scale => .finite (!negative) significand scale

/-- The nearest number to the sum. -/
def add : Double → Double → Double
  | .infinity left, .infinity right => if left = right then .infinity left else .nan
  | .infinity negative, .finite .. | .finite .., .infinity negative => .infinity negative
  | left, right =>
      match left.units?, right.units? with
      | some a, some b => ofUnits (a + b)
      | _, _ => .nan

/-- The nearest number to the product with a power of sixty, itself rounded first. -/
def scaleBySixty (number : Double) (power : Nat) : Double :=
  match number, units? (ofDecimal false (powerOf 60 power) 0) with
  | .finite negative significand scale, some factor =>
      ofUnitRatio negative (significand * powerOf 2 scale * factor.natAbs) (powerOf 2 unitExponent)
  | number, _ => number

/-- Equality of values: zeros of either sign are equal, and NaN equals nothing. -/
def valueEq : Double → Double → Bool
  | .infinity left, .infinity right => left == right
  | left, right =>
      match left.units?, right.units? with
      | some a, some b => a == b
      | _, _ => false

/-- Whether the number is exactly the given integer. -/
def eqInt (number : Double) (n : Int) : Bool :=
  number.units? == some (n * powerOf 2 unitExponent)

/-- The integer part of a finite number, toward zero. -/
def truncate? (number : Double) : Option Int :=
  number.units?.map fun value => value.tdiv (powerOf 2 unitExponent)

end Double

end Mson
