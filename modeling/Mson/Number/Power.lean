/-!
# Powers

Powers of natural numbers, as a function of their own.
-/
namespace Mson

/-- `base` to the power of `exponent`. -/
def powerOf (base exponent : Nat) : Nat := Nat.pow base exponent

end Mson
