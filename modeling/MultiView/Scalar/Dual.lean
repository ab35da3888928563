import MultiView.Scalar

/-!
# Dual numbers

`Dual α` adds to a scalar its derivative along one direction. Each operation carries the derivative by the rule of
calculus for it, so a function written over `[Scalar α]` and run on duals yields its value and its directional
derivative together. Constants have derivative `0`, and comparisons look at the value only: a branch is
differentiated where it is taken.
-/

namespace MultiView

/-- A value and its derivative along one direction. -/
@[ext] structure Dual (α : Type) where
  re : α
  eps : α

namespace Dual

variable {α : Type} [Scalar α]

/-- A constant. -/
@[inline] def lift (x : α) : Dual α := ⟨x, 0⟩

@[inline] def add (a b : Dual α) : Dual α := ⟨a.re + b.re, a.eps + b.eps⟩

@[inline] def sub (a b : Dual α) : Dual α := ⟨a.re - b.re, a.eps - b.eps⟩

@[inline] def mul (a b : Dual α) : Dual α := ⟨a.re * b.re, a.eps * b.re + b.eps * a.re⟩

/-- The quotient rule, with the divisor inverted once. -/
@[inline] def div (a b : Dual α) : Dual α :=
  let inv := 1 / b.re
  ⟨a.re * inv, (a.eps * b.re - b.eps * a.re) * inv * inv⟩

@[inline] def neg (a : Dual α) : Dual α := ⟨-a.re, -a.eps⟩

@[inline] def sqrt (a : Dual α) : Dual α :=
  let root := Scalar.sqrt a.re
  ⟨root, a.eps * (root * (1 / a.re) * Scalar.half)⟩

@[inline] def sin (a : Dual α) : Dual α := ⟨Scalar.sin a.re, a.eps * Scalar.cos a.re⟩

@[inline] def cos (a : Dual α) : Dual α := ⟨Scalar.cos a.re, a.eps * -Scalar.sin a.re⟩

/-- The angle of a vector changes as the arctangent of its slope. -/
@[inline] def atan2 (a b : Dual α) : Dual α :=
  let slope := div a b
  ⟨Scalar.atan2 a.re b.re, slope.eps * (1 / (1 + slope.re * slope.re))⟩

instance : Scalar (Dual α) where
  add := add
  sub := sub
  mul := mul
  div := div
  neg := neg
  zero := lift 0
  one := lift 1
  lt a b := a.re < b.re
  le a b := a.re ≤ b.re
  beq a b := a.re == b.re
  decimal m places := lift (Scalar.decimal m places)
  sqrt := sqrt
  sin := sin
  cos := cos
  atan2 := atan2
  pi := lift Scalar.pi
  isFinite a := Scalar.isFinite a.re
  decLt := fun a b => inferInstanceAs (Decidable (a.re < b.re))
  decLe := fun a b => inferInstanceAs (Decidable (a.re ≤ b.re))

end Dual

end MultiView
