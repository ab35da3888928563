import MultiView.Proofs.Scalar.Embedding

/-!
# Dual numbers of several directions

`MultiDual κ α` adds to a scalar its derivatives along a family of directions, all of them carried at once by the
rules of calculus. Along one direction that is dual arithmetic (`MultiDual.embeds_part`).
-/

namespace MultiView

/-- A value and its derivatives along several directions. -/
structure MultiDual (κ α : Type) where
  re : α
  eps : κ → α

namespace MultiDual

variable {κ α : Type}

/-- A value and its derivative along one of the directions. -/
def part (k : κ) (a : MultiDual κ α) : Dual α := ⟨a.re, a.eps k⟩

variable [Scalar α]

/-- A constant. -/
def lift (x : α) : MultiDual κ α := ⟨x, fun _ => 0⟩

/-- A function of one number, of which the slope is known. -/
def chain (value slope : α) (a : MultiDual κ α) : MultiDual κ α := ⟨value, fun k => a.eps k * slope⟩

/-- The quotient rule, with the divisor inverted once. -/
def div (a b : MultiDual κ α) : MultiDual κ α :=
  let inv := 1 / b.re
  ⟨a.re * inv, fun k => (a.eps k * b.re - b.eps k * a.re) * inv * inv⟩

instance : Scalar (MultiDual κ α) where
  add a b := ⟨a.re + b.re, fun k => a.eps k + b.eps k⟩
  sub a b := ⟨a.re - b.re, fun k => a.eps k - b.eps k⟩
  mul a b := ⟨a.re * b.re, fun k => a.eps k * b.re + b.eps k * a.re⟩
  div := div
  neg a := ⟨-a.re, fun k => -a.eps k⟩
  zero := lift 0
  one := lift 1
  lt a b := a.re < b.re
  le a b := a.re ≤ b.re
  beq a b := a.re == b.re
  decimal m places := lift (Scalar.decimal m places)
  sqrt a := a.chain (Scalar.sqrt a.re) (Scalar.sqrt a.re * (1 / a.re) * Scalar.half)
  sin a := a.chain (Scalar.sin a.re) (Scalar.cos a.re)
  cos a := a.chain (Scalar.cos a.re) (-Scalar.sin a.re)
  atan2 a b :=
    let slope := div a b
    slope.chain (Scalar.atan2 a.re b.re) (1 / (1 + slope.re * slope.re))
  pi := lift Scalar.pi
  isFinite a := Scalar.isFinite a.re
  decLt := fun a b => inferInstanceAs (Decidable (a.re < b.re))
  decLe := fun a b => inferInstanceAs (Decidable (a.re ≤ b.re))

/-- The directions do not mix. -/
theorem embeds_part (k : κ) : Scalar.Embeds (part k : MultiDual κ α → Dual α) fun _ => True where
  zero := rfl
  one := rfl
  neg _ := rfl
  add _ _ := rfl
  sub _ _ := rfl
  mul _ _ := rfl
  div _ _ _ := rfl
  decimal _ _ := rfl
  sqrt _ := rfl
  sin _ := rfl
  cos _ := rfl
  lt _ _ := Iff.rfl
  le _ _ := Iff.rfl

end MultiDual

end MultiView
