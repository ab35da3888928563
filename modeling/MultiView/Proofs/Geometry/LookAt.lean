import Mathlib
import MultiView.Proofs.Geometry.MatrixQuaternion

/-!
# Cameras that look at a point

The frame at an eye towards a target has its axes at right angles, unless the target is straight along the direction
that is to be up (`Vec3.frame_towards`). A camera with this frame has its eye at the origin and the target on its axis,
as far away as it is, and is level (`Pose.looksAt_lookAt`).
-/

namespace MultiView

namespace Vec3

variable {up d : Vec3 ℝ}

/-- The direction at right angles to two others depends on their directions only. -/
theorem normalize_cross_normalize (h : d ≠ zero) : (up.cross d.normalize).normalize = (up.cross d).normalize := by
  rw [normalize_eq_scale d, cross_scale, normalize_scale _ (inv_pos.2 (norm_pos h))]

/-- The axes of the frame that looks along a direction. -/
theorem frame_towards (h : up.cross d ≠ zero) :
    Frame (up.cross d).normalize (d.normalize.cross (up.cross d).normalize) d.normalize := by
  have hd := norm_normalize (norm_pos (ne_zero_of_cross h))
  refine .of_dot hd (norm_normalize (norm_pos h)) ?_
  rw [normalize_eq_scale (up.cross d), dot_scale, dot_comm, normalize_eq_scale, dot_scale, dot_comm, dot_cross_right,
    zero_mul, zero_mul]

end Vec3

namespace Pose

/-- A rigid motion does not change distances. -/
theorem norm_apply_sub {p : Pose ℝ} (h : p.rot.norm = 1) (u v : Vec3 ℝ) :
    (p.apply u - p.apply v).norm = (u - v).norm := by
  have hsub : p.apply u - p.apply v = p.rot.rotate (u - v) := by
    ext <;> simp [apply, Quat.rotate, Quat.im, Vec3.cross, Vec3.scale] <;> ring
  have hnormSq : (p.rot.rotate (u - v)).normSq = (u - v).normSq := Quat.dot_rotate h (u - v) (u - v)
  rw [hsub, Vec3.norm, Vec3.norm, hnormSq]

/-- Is a pose the rigid motion into the frame of a level camera at an eye, which has the target on its axis? -/
structure LooksAt (p : Pose ℝ) (eye target : Vec3 ℝ) : Prop where
  norm : p.rot.norm = 1
  rigid : ∀ u v, (p.apply u - p.apply v).norm = (u - v).norm
  apply_eye : p.apply eye = Vec3.zero
  apply_target : p.apply target = ⟨0, 0, (target - eye).norm⟩
  level : (p.inverse.rot.rotate Vec3.xAxis).y = 0

variable {eye target up : Vec3 ℝ}

theorem rot_frameTowards (h : up.cross (target - eye) ≠ Vec3.zero) :
    (frameTowards eye target up).rot = Quat.ofMat3 (Mat3.ofColumns (up.cross (target - eye)).normalize
      ((target - eye).normalize.cross (up.cross (target - eye)).normalize) (target - eye).normalize) := by
  rw [frameTowards, Vec3.normalize_cross_normalize (Vec3.ne_zero_of_cross h)]

theorem norm_frameTowards (h : up.cross (target - eye) ≠ Vec3.zero) : (frameTowards eye target up).rot.norm = 1 := by
  rw [rot_frameTowards h]
  exact (Quat.toMat3_ofMat3 (Vec3.frame_towards h)).1

/-- The axes of a frame towards a target, in the world. -/
theorem rotate_frameTowards (h : up.cross (target - eye) ≠ Vec3.zero) (v : Vec3 ℝ) :
    (frameTowards eye target up).rot.rotate v = (up.cross (target - eye)).normalize.scale v.x +
      ((target - eye).normalize.cross (up.cross (target - eye)).normalize).scale v.y +
      (target - eye).normalize.scale v.z := by
  rw [rot_frameTowards h, Quat.rotate_ofMat3 (Vec3.frame_towards h)]

/-- The frame has its eye at the origin. -/
theorem frameTowards_apply_zero (h : up.cross (target - eye) ≠ Vec3.zero) :
    (frameTowards eye target up).apply Vec3.zero = eye := by
  rw [apply, rotate_frameTowards h]
  ext <;> simp [Vec3.zero, Vec3.scale, frameTowards]

/-- The target is on the third axis, as far away as it is. -/
theorem frameTowards_apply_norm (h : up.cross (target - eye) ≠ Vec3.zero) :
    (frameTowards eye target up).apply ⟨0, 0, (target - eye).norm⟩ = target := by
  have hpos := (Vec3.norm_pos (Vec3.ne_zero_of_cross h)).ne'
  have hdirection : (target - eye).normalize.scale (target - eye).norm = target - eye := by
    rw [Vec3.normalize_eq_scale, Vec3.scale_scale, inv_mul_cancel₀ hpos, Vec3.scale_one]
  rw [apply, rotate_frameTowards h, hdirection]
  ext <;> simp [Vec3.scale, frameTowards]

/-- A camera looks at a target that is not straight above or below it. -/
theorem looksAt_lookAt (h : Vec3.yAxis.cross (target - eye) ≠ Vec3.zero) :
    (lookAt eye target).LooksAt eye target := by
  have hframe := norm_frameTowards h
  have hnorm : (lookAt eye target).rot.norm = 1 := Quat.norm_conj hframe
  refine ⟨hnorm, norm_apply_sub hnorm, ?_, ?_, ?_⟩
  · have hback := inverse_apply_apply hframe Vec3.zero
    rwa [frameTowards_apply_zero h] at hback
  · have hback := inverse_apply_apply hframe ⟨0, 0, (target - eye).norm⟩
    rwa [frameTowards_apply_norm h] at hback
  · have hrot : (lookAt eye target).inverse.rot = (frameTowards eye target Vec3.yAxis).rot := Quat.conj_conj _
    have haxis : (Vec3.yAxis.cross (target - eye)).y = 0 := by simp [Vec3.cross, Vec3.yAxis]
    rw [hrot, rotate_frameTowards h]
    simp [Vec3.xAxis, Vec3.scale, Vec3.normalize, haxis]

end Pose

end MultiView
