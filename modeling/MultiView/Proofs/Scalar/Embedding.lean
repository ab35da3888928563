import MultiView.Geometry.Vector
import MultiView.Scalar.Dual

/-!
# Arithmetic within larger arithmetic

A map from one scalar type into another embeds it (`Scalar.Embeds`) if the operations of the larger one, done on images,
give images; quotients and roots need do so at regular numbers only. Then a function over any scalar type gives the same
in both, as far as what it divides by is regular, and so do the operations on vectors here. An embedding passes to dual
numbers (`Scalar.Embeds.dual`).
-/

namespace MultiView

variable {α β : Type}

/-- A dual number with its parts mapped. -/
def Dual.map (φ : α → β) (a : Dual α) : Dual β := ⟨φ a.re, φ a.eps⟩

variable [Scalar α] [Scalar β]

/-- The operations on images give images; division does by a regular number, and the root of one. -/
structure Scalar.Embeds (φ : α → β) (regular : α → Prop) : Prop where
  zero : 0 = φ 0
  one : 1 = φ 1
  neg : ∀ a, -φ a = φ (-a)
  add : ∀ a b, φ a + φ b = φ (a + b)
  sub : ∀ a b, φ a - φ b = φ (a - b)
  mul : ∀ a b, φ a * φ b = φ (a * b)
  div : ∀ a {b}, regular b → φ a / φ b = φ (a / b)
  decimal : ∀ m places, Scalar.decimal m places = φ (Scalar.decimal m places)
  sqrt : ∀ {a}, regular a → Scalar.sqrt (φ a) = φ (Scalar.sqrt a)
  sin : ∀ a, Scalar.sin (φ a) = φ (Scalar.sin a)
  cos : ∀ a, Scalar.cos (φ a) = φ (Scalar.cos a)
  lt : ∀ a b, φ a < φ b ↔ a < b
  le : ∀ a b, φ a ≤ φ b ↔ a ≤ b

/-- Are the length of a vector and its square regular? -/
structure Vec3.Directed (regular : α → Prop) (v : Vec3 α) : Prop where
  normSq : regular v.normSq
  norm : regular v.norm

namespace Scalar.Embeds

variable {φ : α → β} {regular : α → Prop} (h : Embeds φ regular)

include h

theorem half : Scalar.half = φ Scalar.half := h.decimal 5 1

theorem ofNat (n : Nat) : Scalar.ofNat n = φ (Scalar.ofNat n) := h.decimal n 0

theorem abs (a : α) : Scalar.abs (φ a) = φ (Scalar.abs a) := by
  have hneg : φ a < 0 ↔ a < 0 := by rw [h.zero, h.lt]
  simp only [Scalar.abs, hneg, h.neg]
  split <;> rfl

/-! ## Vectors -/

section Vectors

variable (a b : Vec3 α) (s : α)

theorem vec3_add : a.map φ + b.map φ = (a + b).map φ :=
  Vec3.ext (h.add _ _) (h.add _ _) (h.add _ _)

theorem vec3_sub : a.map φ - b.map φ = (a - b).map φ :=
  Vec3.ext (h.sub _ _) (h.sub _ _) (h.sub _ _)

theorem scale : (a.map φ).scale (φ s) = (a.scale s).map φ :=
  Vec3.ext (h.mul _ _) (h.mul _ _) (h.mul _ _)

theorem dot : (a.map φ).dot (b.map φ) = φ (a.dot b) := by
  simp only [Vec3.dot, Vec3.map, h.mul, h.add]

theorem cross : (a.map φ).cross (b.map φ) = (a.cross b).map φ := by
  simp only [Vec3.cross, Vec3.map, h.mul, h.sub]

theorem normSq : (a.map φ).normSq = φ a.normSq := by
  simp only [Vec3.normSq, Vec3.map, h.mul, h.add]

variable {a}

theorem normalize (ha : a.Directed regular) : (a.map φ).normalize = a.normalize.map φ := by
  have hnorm : (a.map φ).norm = φ a.norm := by rw [Vec3.norm, h.normSq, h.sqrt ha.normSq, Vec3.norm]
  simp only [Vec3.normalize, hnorm]
  exact Vec3.ext (h.div _ ha.norm) (h.div _ ha.norm) (h.div _ ha.norm)

end Vectors

/-! ## Dual numbers -/

/-- Derivatives divide by the values only. -/
protected theorem dual : Embeds (Dual.map φ) fun a => regular a.re where
  zero := Dual.ext h.zero h.zero
  one := Dual.ext h.one h.zero
  neg a := Dual.ext (h.neg _) (h.neg _)
  add a b := Dual.ext (h.add _ _) (h.add _ _)
  sub a b := Dual.ext (h.sub _ _) (h.sub _ _)
  mul a b := by
    refine Dual.ext (h.mul _ _) ?_
    change φ a.eps * φ b.re + φ b.eps * φ a.re = φ (a.eps * b.re + b.eps * a.re)
    simp only [h.mul, h.add]
  div a b hb := by
    have hinverse : 1 / φ b.re = φ (1 / b.re) := by rw [h.one, h.div _ hb]
    refine Dual.ext ?_ ?_
    · change φ a.re * (1 / φ b.re) = φ (a.re * (1 / b.re))
      rw [hinverse, h.mul]
    · change (φ a.eps * φ b.re - φ b.eps * φ a.re) * (1 / φ b.re) * (1 / φ b.re) =
        φ ((a.eps * b.re - b.eps * a.re) * (1 / b.re) * (1 / b.re))
      simp only [hinverse, h.mul, h.sub]
  decimal m places := Dual.ext (h.decimal m places) h.zero
  sqrt {a} ha := by
    refine Dual.ext (h.sqrt ha) ?_
    change φ a.eps * (Scalar.sqrt (φ a.re) * (1 / φ a.re) * Scalar.half) =
      φ (a.eps * (Scalar.sqrt a.re * (1 / a.re) * Scalar.half))
    rw [h.one, h.div _ ha, h.sqrt ha, h.half, h.mul, h.mul, h.mul]
  sin a := by
    refine Dual.ext (h.sin _) ?_
    change φ a.eps * Scalar.cos (φ a.re) = φ (a.eps * Scalar.cos a.re)
    rw [h.cos, h.mul]
  cos a := by
    refine Dual.ext (h.cos _) ?_
    change φ a.eps * -Scalar.sin (φ a.re) = φ (a.eps * -Scalar.sin a.re)
    rw [h.sin, h.neg, h.mul]
  lt a b := h.lt a.re b.re
  le a b := h.le a.re b.re

end Scalar.Embeds

end MultiView
