import Mathlib
import MultiView.Proofs.Scalar.Embedding
import MultiView.Proofs.Scalar.Real

/-!
# Guarded arithmetic

Exact numbers that say where a computation is not defined. A quotient by zero is undefined, and so is the root of a
number that is not positive; whatever is computed from something undefined is undefined, and comparisons with it fail.
A function over any scalar type that gives a known number in this arithmetic has divided by nothing that is zero on
the way.

Exact numbers are known numbers (`Guarded.embeds_known`).
-/

namespace MultiView

inductive Guarded where
  | known (x : ℝ)
  | undefined

namespace Guarded

/-- An operation that is always defined. -/
def lift1 (f : ℝ → ℝ) : Guarded → Guarded
  | known x => known (f x)
  | undefined => undefined

/-- An operation on two numbers that is always defined. -/
def lift2 (f : ℝ → ℝ → ℝ) : Guarded → Guarded → Guarded
  | known x, known y => known (f x y)
  | _, _ => undefined

noncomputable def div : Guarded → Guarded → Guarded
  | known x, known y => if y = 0 then undefined else known (x / y)
  | _, _ => undefined

noncomputable def sqrt : Guarded → Guarded
  | known x => if 0 < x then known (Real.sqrt x) else undefined
  | undefined => undefined

/-- Do the numbers compare, if both are known? -/
def Both (r : ℝ → ℝ → Prop) : Guarded → Guarded → Prop
  | known x, known y => r x y
  | _, _ => False

noncomputable instance : Scalar Guarded where
  zero := known 0
  one := known 1
  add := lift2 (· + ·)
  sub := lift2 (· - ·)
  mul := lift2 (· * ·)
  neg := lift1 (- ·)
  div := div
  lt := Both (· < ·)
  le := Both (· ≤ ·)
  beq
    | known x, known y => x == y
    | _, _ => false
  decimal m places := known (Scalar.decimal m places)
  sqrt := sqrt
  sin := lift1 Real.sin
  cos := lift1 Real.cos
  atan2 := lift2 Scalar.atan2
  pi := known Real.pi
  isFinite
    | known _ => true
    | undefined => false
  decLt := Classical.decRel _
  decLe := Classical.decRel _

/-- A positive number may be divided by, and has a root. -/
theorem embeds_known : Scalar.Embeds known (0 < ·) where
  zero := rfl
  one := rfl
  neg _ := rfl
  add _ _ := rfl
  sub _ _ := rfl
  mul _ _ := rfl
  div _ _ hb := if_neg hb.ne'
  decimal _ _ := rfl
  sqrt ha := if_pos ha
  sin _ := rfl
  cos _ := rfl
  lt _ _ := Iff.rfl
  le _ _ := Iff.rfl

end Guarded

end MultiView
