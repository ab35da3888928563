import Mathlib.Algebra.Quaternion
import MultiView.Proofs.Scalar.Real

/-!
# Rotations compose

In exact arithmetic a quaternion is one of Mathlib's (`Quat.toQuaternion`), and a unit quaternion rotates a vector by
conjugation (`Quat.rotate_toQuaternion`). Hence rotating by a product is rotating by its factors one after the other
(`Quat.rotate_mul`), the conjugate rotates back (`Quat.rotate_conj_rotate`), and motions compose (`Pose.comp_apply`),
associatively and with a unit (`Pose.comp_assoc`, `Pose.one_comp`, `Pose.comp_one`).
-/

namespace MultiView

open Quaternion

/-! ## Vectors -/

namespace Vec3

section Components

variable {α : Type} [Scalar α] (a b : Vec3 α)

@[simp] theorem sub_x : (a - b).x = a.x - b.x := rfl

@[simp] theorem sub_y : (a - b).y = a.y - b.y := rfl

@[simp] theorem sub_z : (a - b).z = a.z - b.z := rfl

@[simp] theorem neg_x : (-a).x = -a.x := rfl

@[simp] theorem neg_y : (-a).y = -a.y := rfl

@[simp] theorem neg_z : (-a).z = -a.z := rfl

end Components

variable (u v : Vec3 ℝ) (s : ℝ)

theorem scale_add : (u + v).scale s = u.scale s + v.scale s := by
  ext <;> simp [scale, add_mul]

/-- A point and its multiples are seen in the same place. -/
theorem perspective_scale {s : ℝ} (hs : s ≠ 0) (v : Vec3 ℝ) : (v.scale s).perspective = v.perspective :=
  Vec2.ext (mul_div_mul_right v.x v.z hs) (mul_div_mul_right v.y v.z hs)

end Vec3

/-! ## Quaternions -/

namespace Quat

def toQuaternion (q : Quat ℝ) : ℍ[ℝ] := ⟨q.w, q.x, q.y, q.z⟩

variable (a b q : Quat ℝ)

@[simp] theorem re_toQuaternion : q.toQuaternion.re = q.w := rfl

@[simp] theorem imI_toQuaternion : q.toQuaternion.imI = q.x := rfl

@[simp] theorem imJ_toQuaternion : q.toQuaternion.imJ = q.y := rfl

@[simp] theorem imK_toQuaternion : q.toQuaternion.imK = q.z := rfl

theorem toQuaternion_mul : (a.mul b).toQuaternion = a.toQuaternion * b.toQuaternion := by
  ext <;> simp [mul]

theorem toQuaternion_conj : q.conj.toQuaternion = star q.toQuaternion := by
  ext <;> simp [conj]

theorem normSq_toQuaternion : Quaternion.normSq q.toQuaternion = q.normSq := by
  rw [Quaternion.normSq_def', normSq]
  simp only [re_toQuaternion, imI_toQuaternion, imJ_toQuaternion, imK_toQuaternion]
  ring

/-! ## Unit quaternions -/

variable {a b q}

theorem norm_eq_one : q.norm = 1 ↔ q.normSq = 1 := Real.sqrt_eq_one

theorem norm_mul (ha : a.norm = 1) (hb : b.norm = 1) : (a.mul b).norm = 1 := by
  rw [norm_eq_one] at *
  rw [← normSq_toQuaternion, toQuaternion_mul, map_mul, normSq_toQuaternion, normSq_toQuaternion, ha, hb, one_mul]

theorem norm_conj (h : q.norm = 1) : q.conj.norm = 1 := by
  rw [norm_eq_one] at *
  rw [← normSq_toQuaternion, toQuaternion_conj, Quaternion.normSq_star, normSq_toQuaternion, h]

end Quat

/-! ## Rotations -/

namespace Vec3

/-- A vector as a quaternion without real part. -/
def toQuaternion (v : Vec3 ℝ) : ℍ[ℝ] := ⟨0, v.x, v.y, v.z⟩

variable (v : Vec3 ℝ)

@[simp] theorem re_toQuaternion : v.toQuaternion.re = 0 := rfl

@[simp] theorem imI_toQuaternion : v.toQuaternion.imI = v.x := rfl

@[simp] theorem imJ_toQuaternion : v.toQuaternion.imJ = v.y := rfl

@[simp] theorem imK_toQuaternion : v.toQuaternion.imK = v.z := rfl

theorem toQuaternion_injective : Function.Injective toQuaternion := fun _ _ h =>
  Vec3.ext (congrArg QuaternionAlgebra.imI h) (congrArg QuaternionAlgebra.imJ h) (congrArg QuaternionAlgebra.imK h)

end Vec3

namespace Quat

variable {a b q : Quat ℝ}

/-- A unit quaternion rotates by conjugation. -/
theorem rotate_toQuaternion (h : q.norm = 1) (v : Vec3 ℝ) :
    (q.rotate v).toQuaternion = q.toQuaternion * v.toQuaternion * star q.toQuaternion := by
  have hunit : q.x * q.x + q.y * q.y + q.z * q.z + q.w * q.w = 1 := norm_eq_one.1 h
  ext
  · simp
    ring
  · simp [rotate, Vec3.scale, Vec3.cross, im, Scalar.two]
    linear_combination -v.x * hunit
  · simp [rotate, Vec3.scale, Vec3.cross, im, Scalar.two]
    linear_combination -v.y * hunit
  · simp [rotate, Vec3.scale, Vec3.cross, im, Scalar.two]
    linear_combination -v.z * hunit

theorem rotate_mul (ha : a.norm = 1) (hb : b.norm = 1) (v : Vec3 ℝ) :
    (a.mul b).rotate v = a.rotate (b.rotate v) := by
  apply Vec3.toQuaternion_injective
  rw [rotate_toQuaternion (norm_mul ha hb), rotate_toQuaternion ha, rotate_toQuaternion hb, toQuaternion_mul, star_mul]
  simp only [mul_assoc]

/-- The conjugate rotates back. -/
theorem rotate_conj_rotate (h : q.norm = 1) (v : Vec3 ℝ) : q.conj.rotate (q.rotate v) = v := by
  have hstar : star q.toQuaternion * q.toQuaternion = 1 := by
    rw [Quaternion.star_mul_self, normSq_toQuaternion, norm_eq_one.1 h, Quaternion.coe_one]
  apply Vec3.toQuaternion_injective
  rw [rotate_toQuaternion (norm_conj h), rotate_toQuaternion h, toQuaternion_conj, star_star]
  calc star q.toQuaternion * (q.toQuaternion * v.toQuaternion * star q.toQuaternion) * q.toQuaternion
      = star q.toQuaternion * q.toQuaternion * v.toQuaternion * (star q.toQuaternion * q.toQuaternion) := by
        simp only [mul_assoc]
    _ = v.toQuaternion := by rw [hstar, one_mul, mul_one]

theorem conj_conj (q : Quat ℝ) : q.conj.conj = q := by
  ext <;> simp [conj]

theorem rotate_rotate_conj (h : q.norm = 1) (v : Vec3 ℝ) : q.rotate (q.conj.rotate v) = v := by
  have hback := rotate_conj_rotate (norm_conj h) v
  rwa [conj_conj] at hback

theorem rotate_add (q : Quat ℝ) (u v : Vec3 ℝ) : q.rotate (u + v) = q.rotate u + q.rotate v := by
  ext <;> simp [rotate, Vec3.scale, Vec3.cross, im] <;> ring

theorem rotate_scale (q : Quat ℝ) (v : Vec3 ℝ) (s : ℝ) : q.rotate (v.scale s) = (q.rotate v).scale s := by
  ext <;> simp [rotate, Vec3.scale, Vec3.cross, im] <;> ring

end Quat

/-! ## Motions -/

protected theorem Quat.mul_assoc (a b c : Quat ℝ) : (a.mul b).mul c = a.mul (b.mul c) := by
  ext <;> simp only [mul] <;> ring

namespace Pose

variable {a b : Pose ℝ}

/-- A composed motion is one motion after the other. -/
theorem comp_apply {outer inner : Pose ℝ} (houter : outer.rot.norm = 1) (hinner : inner.rot.norm = 1)
    (v : Vec3 ℝ) : (outer.comp inner).apply v = outer.apply (inner.apply v) := by
  rw [comp, apply, apply, apply, Quat.rotate_mul houter hinner, Quat.rotate_add]
  ext <;> simp [add_assoc]

theorem comp_assoc (ha : a.rot.norm = 1) (hb : b.rot.norm = 1) (c : Pose ℝ) :
    (a.comp b).comp c = a.comp (b.comp c) := by
  have htrans : ((a.comp b).comp c).trans = (a.comp (b.comp c)).trans := comp_apply ha hb c.trans
  exact Pose.ext (Quat.mul_assoc a.rot b.rot c.rot) htrans

theorem one_comp (a : Pose ℝ) : one.comp a = a := by
  have hrot : Quat.one.mul a.rot = a.rot := by
    ext <;> simp [Quat.mul, Quat.one]
  exact Pose.ext hrot (one_apply a.trans)

theorem comp_one (a : Pose ℝ) : a.comp one = a := by
  have hrot : a.rot.mul Quat.one = a.rot := by
    ext <;> simp [Quat.mul, Quat.one]
  have htrans : a.apply Vec3.zero = a.trans := by
    ext <;> simp [apply, Quat.rotate, Quat.im, Vec3.cross, Vec3.scale, Vec3.zero]
  exact Pose.ext hrot htrans

/-- An inverse pose takes back to where a point was. -/
theorem inverse_apply_apply (ha : a.rot.norm = 1) (v : Vec3 ℝ) : a.inverse.apply (a.apply v) = v := by
  have hback : a.rot.rotate v + a.trans + -a.trans = a.rot.rotate v := by
    ext <;> exact add_neg_cancel_right _ _
  rw [apply, inverse, apply, ← Quat.rotate_add, hback, Quat.rotate_conj_rotate ha]

end Pose

end MultiView
