import Mathlib
import MultiView.Proofs.Geometry.Rotation

/-!
# Lengths, angles and frames

Products of vectors in exact arithmetic. The cross product of two vectors is as long as they are not parallel
(`Vec3.normSq_cross`), so for unit vectors it is the sine of their angle where the inner product is the cosine
(`Vec3.cos_angle`, `Vec3.norm_cross`). A vector has a part along a unit vector and a part at right angles to it
(`Vec3.across`), whose lengths are the cosine and the sine of its direction. A right-handed orthonormal frame
(`Vec3.Frame`) resolves every vector (`Vec3.Frame.resolve`).
-/

namespace MultiView

namespace Vec3

/-! ## Products -/

section Products

variable (a b c : Vec3 ℝ) (s t : ℝ)

theorem dot_self : a.dot a = a.normSq := rfl

theorem dot_comm : a.dot b = b.dot a := by
  simp only [dot]
  ring

theorem dot_add : a.dot (b + c) = a.dot b + a.dot c := by
  simp only [dot, add_x, add_y, add_z]
  ring

theorem dot_sub : a.dot (b - c) = a.dot b - a.dot c := by
  simp only [dot, sub_x, sub_y, sub_z]
  ring

theorem dot_scale : a.dot (b.scale s) = a.dot b * s := by
  simp only [dot, scale]
  ring

protected theorem add_zero : a + zero = a := by
  ext <;> simp [zero]

theorem scale_one : a.scale 1 = a := by
  ext <;> exact mul_one _

theorem scale_zero : a.scale 0 = zero := by
  ext <;> exact mul_zero _

theorem scale_neg_one : a.scale (-1) = -a := by
  ext <;> exact mul_neg_one _

theorem scale_scale : (a.scale s).scale t = a.scale (s * t) := by
  ext <;> exact mul_assoc _ s t

theorem cross_scale : a.cross (b.scale s) = (a.cross b).scale s := by
  ext <;> simp only [cross, scale] <;> ring

theorem dot_cross_self : a.dot (a.cross b) = 0 := by
  simp only [dot, cross]
  ring

theorem dot_cross_right : b.dot (a.cross b) = 0 := by
  simp only [dot, cross]
  ring

/-- Lagrange's identity. -/
theorem normSq_cross : (a.cross b).normSq = a.normSq * b.normSq - a.dot b ^ 2 := by
  simp only [dot, cross, normSq]
  ring

theorem cross_cross : a.cross (b.cross c) = b.scale (a.dot c) - c.scale (a.dot b) := by
  ext <;> simp [dot, cross, scale] <;> ring

/-- How a vector lies to a plane and to the normal of the plane. -/
theorem cross_scale_dot : (a.cross b).scale ((a.cross b).dot c) =
    c.scale (a.normSq * b.normSq - a.dot b ^ 2) - a.scale (b.normSq * a.dot c - a.dot b * b.dot c) -
      b.scale (a.normSq * b.dot c - a.dot b * a.dot c) := by
  ext <;> simp [dot, cross, scale, normSq] <;> ring

theorem normSq_scale : (a.scale s).normSq = a.normSq * s ^ 2 := by
  simp only [normSq, scale]
  ring

theorem normSq_scale_add_scale :
    (a.scale s + b.scale t).normSq = a.normSq * s ^ 2 + 2 * (a.dot b * s * t) + b.normSq * t ^ 2 := by
  simp only [dot, normSq, scale, add_x, add_y, add_z]
  ring

theorem normSq_sub : (a - b).normSq = a.normSq - 2 * a.dot b + b.normSq := by
  simp only [dot, normSq, sub_x, sub_y, sub_z]
  ring

end Products

/-! ## Lengths -/

section Lengths

variable {a : Vec3 ℝ}

theorem normSq_nonneg (a : Vec3 ℝ) : 0 ≤ a.normSq :=
  add_nonneg (add_nonneg (mul_self_nonneg _) (mul_self_nonneg _)) (mul_self_nonneg _)

theorem sq_norm (a : Vec3 ℝ) : a.norm ^ 2 = a.normSq := Real.sq_sqrt a.normSq_nonneg

theorem norm_nonneg (a : Vec3 ℝ) : 0 ≤ a.norm := Real.sqrt_nonneg _

theorem norm_eq_one : a.norm = 1 ↔ a.normSq = 1 := Real.sqrt_eq_one

theorem norm_pos (h : a ≠ zero) : 0 < a.norm := by
  refine Real.sqrt_pos.2 (lt_of_le_of_ne a.normSq_nonneg fun h0 => h ?_)
  have hsum : a.x * a.x + a.y * a.y + a.z * a.z = 0 := h0.symm
  ext <;> exact mul_self_eq_zero.1 (by linarith [mul_self_nonneg a.x, mul_self_nonneg a.y, mul_self_nonneg a.z])

theorem ne_zero_of_cross {b : Vec3 ℝ} (h : a.cross b ≠ zero) : b ≠ zero := by
  rintro rfl
  exact h (by simp [cross, zero])

theorem norm_scale (a : Vec3 ℝ) (s : ℝ) : (a.scale s).norm = a.norm * |s| :=
  calc (a.scale s).norm = Real.sqrt (a.normSq * s ^ 2) := congrArg Real.sqrt (normSq_scale a s)
    _ = a.norm * |s| := by rw [Real.sqrt_mul' _ (sq_nonneg s), Real.sqrt_sq_eq_abs]; rfl

/-- A unit vector is its own direction. -/
theorem normalize_of_norm (h : a.norm = 1) : a.normalize = a := by
  have hdiv : ∀ x : ℝ, x / a.norm = x := fun x => by rw [h]; exact div_one x
  exact Vec3.ext (hdiv a.x) (hdiv a.y) (hdiv a.z)

theorem normalize_eq_scale (a : Vec3 ℝ) : a.normalize = a.scale a.norm⁻¹ := by
  ext <;> exact div_eq_mul_inv _ _

theorem norm_normalize (h : 0 < a.norm) : a.normalize.norm = 1 := by
  rw [normalize_eq_scale, norm_scale, abs_of_pos (inv_pos.2 h), mul_inv_cancel₀ h.ne']

/-- The direction does not depend on the length. -/
theorem normalize_scale (a : Vec3 ℝ) {s : ℝ} (hs : 0 < s) : (a.scale s).normalize = a.normalize := by
  have hdiv : ∀ x : ℝ, x * s / (a.norm * s) = x / a.norm := fun x => mul_div_mul_right x a.norm hs.ne'
  rw [normalize, norm_scale, abs_of_pos hs]
  exact Vec3.ext (hdiv a.x) (hdiv a.y) (hdiv a.z)

/-- A negative factor turns the direction around. -/
theorem normalize_scale_of_neg (a : Vec3 ℝ) {s : ℝ} (hs : s < 0) : (a.scale s).normalize = -a.normalize := by
  have hback : (a.scale (-1)).norm = a.norm := by rw [norm_scale, abs_neg, abs_one, mul_one]
  have hfactor : s = -1 * -s := by ring
  rw [hfactor, ← scale_scale, normalize_scale _ (neg_pos.2 hs), normalize_eq_scale, normalize_eq_scale, hback,
    scale_scale, ← scale_neg_one, scale_scale, mul_comm]

/-- A vector that is long enough has a direction. -/
theorem direction?_eq_some {d : Vec3 ℝ} : a.direction? = some d ↔ 1 / 2 ^ 52 < a.norm ∧ d = a.normalize := by
  have hleast : (1 / Scalar.ofNat (Nat.pow 2 52) : ℝ) = 1 / 2 ^ 52 := by
    rw [Scalar.ofNat_eq]
    norm_num
  rw [direction?, hleast]
  by_cases h : a.norm ≤ 1 / 2 ^ 52
  · simp only [if_pos h, reduceCtorEq, not_lt.2 h, false_and]
  · simp only [if_neg h, Option.some.injEq, not_le.1 h, true_and, eq_comm]

end Lengths

/-! ## Parts at right angles -/

/-- The part of a vector at right angles to a unit vector. -/
noncomputable def across (x v : Vec3 ℝ) : Vec3 ℝ := v - x.scale (x.dot v)

section Across

variable {x : Vec3 ℝ}

theorem dot_across (hx : x.norm = 1) (v : Vec3 ℝ) : x.dot (x.across v) = 0 := by
  rw [across, dot_sub, dot_scale, dot_self, norm_eq_one.1 hx, one_mul, sub_self]

theorem normSq_across (hx : x.norm = 1) (v : Vec3 ℝ) : (x.across v).normSq = v.normSq - x.dot v ^ 2 := by
  rw [across, normSq_sub, normSq_scale, dot_scale, norm_eq_one.1 hx, dot_comm v x]
  ring

theorem norm_across (hx : x.norm = 1) (v : Vec3 ℝ) : (x.across v).norm = (x.cross v).norm := by
  refine congrArg Real.sqrt ?_
  rw [normSq_across hx, normSq_cross, norm_eq_one.1 hx, one_mul]

theorem scale_dot_add_across (x v : Vec3 ℝ) : x.scale (x.dot v) + x.across v = v := by
  ext <;> simp [across]

theorem across_of_dot {v : Vec3 ℝ} (h : x.dot v = 0) : x.across v = v := by
  rw [across, h, scale_zero]
  ext <;> exact sub_zero _

theorem across_scale (x v : Vec3 ℝ) (s : ℝ) : x.across (v.scale s) = (x.across v).scale s := by
  rw [across, dot_scale]
  ext <;> simp [across, scale] <;> ring

end Across

/-! The direction of the sum of a part along a unit vector and a part at right angles to it. -/

section Directions

variable {x v : Vec3 ℝ} {c : ℝ}

theorem dot_scale_add (hx : x.norm = 1) (hv : x.dot v = 0) (c : ℝ) : x.dot (x.scale c + v) = c := by
  rw [dot_add, dot_scale, dot_self, norm_eq_one.1 hx, hv, one_mul, add_zero]

theorem across_scale_add (hx : x.norm = 1) (hv : x.dot v = 0) (c : ℝ) : x.across (x.scale c + v) = v := by
  rw [across, dot_scale_add hx hv]
  ext <;> exact add_sub_cancel_left _ _

theorem normSq_scale_add (hx : x.norm = 1) (hv : x.dot v = 0) (c : ℝ) :
    (x.scale c + v).normSq = c ^ 2 + v.normSq := by
  have hacross := normSq_across hx (x.scale c + v)
  rw [across_scale_add hx hv, dot_scale_add hx hv] at hacross
  linarith

theorem norm_scale_add_pos (hx : x.norm = 1) (hv : x.dot v = 0) (hc : 0 < c) : 0 < (x.scale c + v).norm :=
  Real.sqrt_pos.2 (by rw [normSq_scale_add hx hv]; exact add_pos_of_pos_of_nonneg (by positivity) v.normSq_nonneg)

theorem dot_normalize_scale_add (hx : x.norm = 1) (hv : x.dot v = 0) (c : ℝ) :
    x.dot (x.scale c + v).normalize = c / (x.scale c + v).norm := by
  rw [normalize_eq_scale, dot_scale, dot_scale_add hx hv, div_eq_mul_inv]

theorem norm_cross_normalize_scale_add (hx : x.norm = 1) (hv : x.dot v = 0) (c : ℝ) :
    (x.cross (x.scale c + v).normalize).norm = v.norm / (x.scale c + v).norm := by
  rw [← norm_across hx, normalize_eq_scale, across_scale, across_scale_add hx hv, norm_scale,
    abs_of_nonneg (inv_nonneg.2 (norm_nonneg _)), div_eq_mul_inv]

end Directions

/-! ## Angles -/

/-- The angle between two vectors. -/
noncomputable def angle (a b : Vec3 ℝ) : ℝ := Real.arccos (a.dot b / (a.norm * b.norm))

section Angles

variable {a b : Vec3 ℝ}

theorem angle_comm (a b : Vec3 ℝ) : a.angle b = b.angle a := by
  rw [angle, angle, dot_comm, mul_comm]

theorem angle_nonneg (a b : Vec3 ℝ) : 0 ≤ a.angle b := Real.arccos_nonneg _

theorem angle_le_pi (a b : Vec3 ℝ) : a.angle b ≤ Real.pi := Real.arccos_le_pi _

theorem sq_dot_add_normSq_cross (ha : a.norm = 1) (hb : b.norm = 1) : a.dot b ^ 2 + (a.cross b).normSq = 1 := by
  rw [normSq_cross, norm_eq_one.1 ha, norm_eq_one.1 hb]
  ring

theorem norm_cross_comm (a b : Vec3 ℝ) : (a.cross b).norm = (b.cross a).norm := by
  refine congrArg Real.sqrt ?_
  rw [normSq_cross, normSq_cross, dot_comm, mul_comm]

theorem norm_cross_of_dot (ha : a.norm = 1) (hb : b.norm = 1) (h : a.dot b ^ 2 = 1) : (a.cross b).norm = 0 := by
  have hzero : (a.cross b).normSq = 0 := by linarith [sq_dot_add_normSq_cross ha hb]
  exact (congrArg Real.sqrt hzero).trans Real.sqrt_zero

theorem cos_angle (ha : a.norm = 1) (hb : b.norm = 1) : Real.cos (a.angle b) = a.dot b := by
  have hdot : a.dot b ^ 2 ≤ 1 := by linarith [sq_dot_add_normSq_cross ha hb, (a.cross b).normSq_nonneg]
  obtain ⟨hlower, hupper⟩ := abs_le.1 ((sq_le_one_iff_abs_le_one _).1 hdot)
  rw [angle, ha, hb, mul_one, div_one, Real.cos_arccos hlower hupper]

theorem norm_cross (ha : a.norm = 1) (hb : b.norm = 1) : (a.cross b).norm = Real.sin (a.angle b) := by
  have hsq : (a.cross b).normSq = Real.sin (a.angle b) ^ 2 := by
    have hcircle := sq_dot_add_normSq_cross ha hb
    rw [← cos_angle ha hb] at hcircle
    linarith [Real.sin_sq_add_cos_sq (a.angle b)]
  calc (a.cross b).norm = Real.sqrt (Real.sin (a.angle b) ^ 2) := congrArg Real.sqrt hsq
    _ = Real.sin (a.angle b) :=
      Real.sqrt_sq (Real.sin_nonneg_of_nonneg_of_le_pi (angle_nonneg a b) (angle_le_pi a b))

end Angles

/-! ## Frames -/

/-- Three unit vectors at right angles, the third of which is the cross product of the others. -/
structure Frame (b1 b2 x : Vec3 ℝ) : Prop where
  norm_b1 : b1.norm = 1
  norm_b2 : b2.norm = 1
  norm_x : x.norm = 1
  b1_dot_b2 : b1.dot b2 = 0
  x_dot_b1 : x.dot b1 = 0
  x_dot_b2 : x.dot b2 = 0
  cross : b1.cross b2 = x

namespace Frame

variable {b1 b2 x : Vec3 ℝ}

/-- A unit vector and one at right angles to it make a frame. -/
theorem of_dot (hx : x.norm = 1) (hb : b1.norm = 1) (hdot : x.dot b1 = 0) : Frame b1 (x.cross b1) x where
  norm_b1 := hb
  norm_b2 := by
    rw [norm_eq_one, normSq_cross, norm_eq_one.1 hx, norm_eq_one.1 hb, hdot]
    norm_num
  norm_x := hx
  b1_dot_b2 := dot_cross_right x b1
  x_dot_b1 := hdot
  x_dot_b2 := dot_cross_self x b1
  cross := by
    rw [cross_cross, dot_self, norm_eq_one.1 hb, dot_comm, hdot, scale_one, scale_zero]
    ext <;> exact sub_zero _

/-- The same vectors from the second on. -/
theorem cycle (h : Frame b1 b2 x) : Frame b2 x b1 where
  norm_b1 := h.norm_b2
  norm_b2 := h.norm_x
  norm_x := h.norm_b1
  b1_dot_b2 := by rw [dot_comm, h.x_dot_b2]
  x_dot_b1 := h.b1_dot_b2
  x_dot_b2 := by rw [dot_comm, h.x_dot_b1]
  cross := by
    rw [← h.cross, cross_cross, dot_self, norm_eq_one.1 h.norm_b2, dot_comm, h.b1_dot_b2, scale_one, scale_zero]
    ext <;> exact sub_zero _

/-- A vector is the sum of its parts along a frame. -/
theorem resolve (h : Frame b1 b2 x) (v : Vec3 ℝ) :
    b1.scale (b1.dot v) + b2.scale (b2.dot v) + x.scale (x.dot v) = v := by
  have hnormal := cross_scale_dot b1 b2 v
  rw [h.cross, norm_eq_one.1 h.norm_b1, norm_eq_one.1 h.norm_b2, h.b1_dot_b2] at hnormal
  rw [hnormal]
  ext <;> simp [scale]

end Frame

end Vec3

end MultiView
