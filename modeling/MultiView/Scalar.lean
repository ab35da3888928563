/-!
# Scalars

The arithmetic that geometry, factors and problems are written in. A definition over `[Scalar α]` is run on
`Float`, differentiated on dual numbers and reasoned about on the real numbers: the class fixes the operations and
asks for no laws, because rounded arithmetic satisfies none.

Comparisons are decidable propositions of the type's own order. `==` is the type's own equality test, under which
a NaN differs from itself.
-/

namespace MultiView

/-- The operations of a scalar type. -/
class Scalar (α : Type) extends Add α, Sub α, Mul α, Div α, Neg α, Zero α, One α, LT α, LE α, BEq α where
  /-- The number `m / 10 ^ places`. -/
  decimal (m places : Nat) : α
  sqrt : α → α
  sin : α → α
  cos : α → α
  /-- The angle of the vector with the first argument as height and the second as base. -/
  atan2 : α → α → α
  pi : α
  /-- Neither infinite nor a NaN. -/
  isFinite : α → Bool
  decLt : DecidableLT α
  decLe : DecidableLE α

instance Scalar.decidableLt {α : Type} [Scalar α] (a b : α) : Decidable (a < b) := Scalar.decLt a b

instance Scalar.decidableLe {α : Type} [Scalar α] (a b : α) : Decidable (a ≤ b) := Scalar.decLe a b

/-- Binary64 arithmetic. -/
instance : Scalar Float where
  zero := 0
  one := 1
  decimal m places := Float.ofScientific m true places
  sqrt := Float.sqrt
  sin := Float.sin
  cos := Float.cos
  atan2 := Float.atan2
  pi := 3.141592653589793
  isFinite := Float.isFinite
  decLt := fun a b => inferInstanceAs (Decidable (a < b))
  decLe := fun a b => inferInstanceAs (Decidable (a ≤ b))

namespace Scalar

variable {α : Type} [Scalar α]

/-- The scalar of a natural number. -/
@[inline] def ofNat (n : Nat) : α := decimal n 0

@[inline] def two : α := 1 + 1

@[inline] def half : α := decimal 5 1

/-- The absolute value. -/
@[inline] def abs (x : α) : α := if x < 0 then -x else x

/-- The sum of a list, from the left. -/
@[specialize] def sum (xs : List α) : α := xs.foldl (· + ·) 0

/-- Positive and finite: what a length or a scale has to be. -/
@[inline] def isPositive (x : α) : Bool := isFinite x && decide (0 < x)

end Scalar

end MultiView
