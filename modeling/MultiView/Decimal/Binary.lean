/-!
# Binary fractions

The exact value of a finite binary64 number: a sign and a magnitude `mantissa * 2 ^ exponent`. The decimal texts of
numbers are computed from it in the natural numbers, so that no rounding enters before the last digit.
-/

namespace MultiView

structure Binary where
  negative : Bool
  mantissa : Nat
  exponent : Int

namespace Binary

/-- The exact value of a finite number. -/
def ofFloat? (x : Float) : Option Binary :=
  let bits := x.toBits.toNat
  let negative := decide (Nat.pow 2 63 ≤ bits)
  let biased : Nat := bits / Nat.pow 2 52 % Nat.pow 2 11
  let fraction := bits % Nat.pow 2 52
  if biased = Nat.pow 2 11 - 1 then none
  else if biased = 0 then some ⟨negative, fraction, -1074⟩
  else some ⟨negative, fraction + Nat.pow 2 52, (biased : Int) - 1075⟩

/-- Is the next smaller magnitude nearer than the next larger one? So it is at the powers of two. -/
def isNarrowBelow (b : Binary) : Bool := decide (b.mantissa = Nat.pow 2 52 ∧ -1074 < b.exponent)

end Binary

/-- The magnitude `numerator / denominator` as a fraction of natural numbers. -/
structure Ratio where
  numerator : Nat
  denominator : Nat

namespace Ratio

/-- The fraction `m * 2 ^ e`. -/
def ofPowerOfTwo (m : Nat) (e : Int) : Ratio := ⟨m * Nat.pow 2 e.toNat, Nat.pow 2 (-e).toNat⟩

/-- The fraction divided by `10 ^ e`. -/
def dividePowerOfTen (r : Ratio) (e : Int) : Ratio :=
  ⟨r.numerator * Nat.pow 10 (-e).toNat, r.denominator * Nat.pow 10 e.toNat⟩

/-- The nearest natural number; from the middle between two, the even one. -/
def roundHalfEven (r : Ratio) : Nat :=
  let q := r.numerator / r.denominator
  let twice := 2 * (r.numerator % r.denominator)
  if twice < r.denominator then q
  else if r.denominator < twice then q + 1
  else q + q % 2

end Ratio

/-- The magnitude of a binary fraction. -/
def Binary.magnitude (b : Binary) : Ratio := Ratio.ofPowerOfTwo b.mantissa b.exponent

/-- A bound for the decimal exponent of a nonzero magnitude: it is below `10 ^ (exponentBound + 1)`. -/
def Binary.exponentBound (b : Binary) : Int := (b.mantissa.log2 + 1 + b.exponent) * 30103 / 100000 + 1

end MultiView
