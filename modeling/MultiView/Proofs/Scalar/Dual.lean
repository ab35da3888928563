import Mathlib
import MultiView.Proofs.Scalar.Embedding
import MultiView.Proofs.Scalar.Real
import MultiView.Proofs.Geometry.Vector

/-!
# Dual numbers and vectors

Values and derivatives of dual arithmetic on exact numbers. Arithmetic of constants is that of the numbers
(`Dual.embeds_lift`), and so is that of real parts (`Dual.embeds_re`). A vector of duals is a vector with its
derivative (`Vec3.dual`); its length changes by the part of the derivative along it, so a unit vector stays of unit
length as far as its derivative is at right angles (`Vec3.normalize_dual`).
-/

namespace MultiView

namespace Dual

/-! ## Values and derivatives -/

section Parts

variable {α : Type} [Scalar α] (a b : Dual α)

@[simp] theorem re_zero : (0 : Dual α).re = 0 := rfl

@[simp] theorem eps_zero : (0 : Dual α).eps = 0 := rfl

@[simp] theorem re_one : (1 : Dual α).re = 1 := rfl

@[simp] theorem eps_one : (1 : Dual α).eps = 0 := rfl

@[simp] theorem re_add : (a + b).re = a.re + b.re := rfl

@[simp] theorem eps_add : (a + b).eps = a.eps + b.eps := rfl

@[simp] theorem re_sub : (a - b).re = a.re - b.re := rfl

@[simp] theorem eps_sub : (a - b).eps = a.eps - b.eps := rfl

@[simp] theorem re_mul : (a * b).re = a.re * b.re := rfl

@[simp] theorem eps_mul : (a * b).eps = a.eps * b.re + b.eps * a.re := rfl

@[simp] theorem re_div : (a / b).re = a.re * (1 / b.re) := rfl

@[simp] theorem eps_div : (a / b).eps = (a.eps * b.re - b.eps * a.re) * (1 / b.re) * (1 / b.re) := rfl

@[simp] theorem re_sqrt : (Scalar.sqrt a).re = Scalar.sqrt a.re := rfl

@[simp] theorem eps_sqrt : (Scalar.sqrt a).eps = a.eps * (Scalar.sqrt a.re * (1 / a.re) * Scalar.half) := rfl

@[simp] theorem re_lift (x : α) : (lift x).re = x := rfl

@[simp] theorem eps_lift (x : α) : (lift x).eps = 0 := rfl

end Parts

/-! ## Constants -/

/-- Arithmetic of constants is that of the numbers. -/
theorem embeds_lift : Scalar.Embeds (lift : ℝ → Dual ℝ) fun _ => True where
  zero := rfl
  one := rfl
  neg _ := Dual.ext rfl neg_zero
  add _ _ := Dual.ext rfl (add_zero _)
  sub _ _ := Dual.ext rfl (sub_zero _)
  mul _ _ := Dual.ext rfl (by simp)
  div a b _ := Dual.ext (mul_one_div a b) (by simp)
  decimal _ _ := rfl
  sqrt _ := Dual.ext rfl (zero_mul _)
  sin _ := Dual.ext rfl (zero_mul _)
  cos _ := Dual.ext rfl (zero_mul _)
  lt _ _ := Iff.rfl
  le _ _ := Iff.rfl

/-! ## Real parts -/

/-- Dual parts do not disturb real parts. -/
theorem embeds_re : Scalar.Embeds (re : Dual ℝ → ℝ) fun _ => True where
  zero := rfl
  one := rfl
  neg _ := rfl
  add _ _ := rfl
  sub _ _ := rfl
  mul _ _ := rfl
  div a b _ := (mul_one_div a.re b.re).symm
  decimal _ _ := rfl
  sqrt _ := rfl
  sin _ := rfl
  cos _ := rfl
  lt _ _ := Iff.rfl
  le _ _ := Iff.rfl

end Dual

namespace Vec3

/-! ## Vectors with derivatives -/

/-- A vector and its derivative. -/
def dual {α : Type} (v e : Vec3 α) : Vec3 (Dual α) := ⟨⟨v.x, e.x⟩, ⟨v.y, e.y⟩, ⟨v.z, e.z⟩⟩

variable {v : Vec3 ℝ}

theorem normSq_dual (v e : Vec3 ℝ) : (v.dual e).normSq = ⟨v.normSq, 2 * v.dot e⟩ := by
  ext
  · rfl
  · simp [dual, normSq, dot]
    ring

theorem norm_dual (h : v.norm = 1) (e : Vec3 ℝ) : (v.dual e).norm = ⟨1, v.dot e⟩ := by
  have hsq : v.normSq = 1 := Real.sqrt_eq_one.1 h
  have hsqrt : Scalar.sqrt (1 : ℝ) = 1 := Real.sqrt_one
  have hhalf : (Scalar.half : ℝ) = 1 / 2 := by norm_num [Scalar.half, Scalar.decimal]
  rw [norm, normSq_dual, hsq]
  ext
  · simp [hsqrt]
  · simp [hsqrt, hhalf]
    ring

/-- The direction of a unit vector loses what its derivative has along it. -/
theorem normalize_dual (h : v.norm = 1) (e : Vec3 ℝ) : (v.dual e).normalize = v.dual (v.across e) := by
  rw [normalize, norm_dual h]
  ext <;> simp [dual, across, scale, mul_comm]

end Vec3

end MultiView
