import Mathlib
import MultiView.Proofs.Factor.Transfer
import MultiView.Proofs.Geometry.Matrix
import MultiView.Proofs.Problem.Evaluation

/-!
# Epipolar geometry

The squared Sampson error of a correspondence is its epipolar form squared over a denominator
(`Factor.sampsonError_eq`). In exact arithmetic the form is the triple product of the ray in the second view, the motion
and the rotated ray in the first view (`Factor.epipolarForm_eq`), so it vanishes where two views see one point
(`Factor.epipolarForm_apply`). Form and denominator scale with the motion (`Factor.epipolarForm_scale`,
`Factor.sampsonDenominator_scale`).
-/

namespace MultiView

namespace Factor

/-- The epipolar form of a correspondence under the essential matrix `[t]× R`. -/
def epipolarForm {α : Type} [Scalar α] (rotation : Quat α) (trans : Vec3 α) (x1 x2 : Vec2 α) : α :=
  x2.homogeneous.dot (((Mat3.skew trans).mul rotation.toMat3).mulVec x1.homogeneous)

theorem sampsonError_eq {α : Type} [Scalar α] (rotation : Quat α) (trans : Vec3 α) (x1 x2 : Vec2 α) :
    sampsonError rotation trans x1 x2 = epipolarForm rotation trans x1 x2 * epipolarForm rotation trans x1 x2 /
      sampsonDenominator rotation trans x1 x2 := rfl

end Factor

/-- The ray of an image point goes through the points that are seen there. -/
theorem Vec3.homogeneous_perspective {v : Vec3 ℝ} (h : v.z ≠ 0) : v.perspective.homogeneous = v.scale v.z⁻¹ := by
  ext
  · exact div_eq_mul_inv v.x v.z
  · exact div_eq_mul_inv v.y v.z
  · exact (mul_inv_cancel₀ h).symm

namespace Factor

variable {rotation : Quat ℝ} {trans : Vec3 ℝ} {x1 x2 : Vec2 ℝ}

theorem epipolarForm_eq (h : rotation.norm = 1) : epipolarForm rotation trans x1 x2 =
    x2.homogeneous.dot (trans.cross (rotation.rotate x1.homogeneous)) := by
  rw [epipolarForm, Mat3.mul_mulVec, Mat3.skew_mulVec, Quat.toMat3_mulVec h]

/-- What two views see of one point meets the epipolar constraint. -/
theorem epipolarForm_apply {pose : Pose ℝ} (h : pose.rot.norm = 1) {p : Vec3 ℝ} (hp : p.z ≠ 0)
    (hq : (pose.apply p).z ≠ 0) :
    epipolarForm pose.rot pose.trans p.perspective (pose.apply p).perspective = 0 := by
  have htriple : (pose.apply p).dot (pose.trans.cross (pose.rot.rotate p)) = 0 := by
    rw [Pose.apply, Vec3.dot_comm, Vec3.dot_add, Vec3.dot_comm _ pose.trans, Vec3.dot_cross_self,
      Vec3.dot_comm _ (pose.rot.rotate p), Vec3.dot_cross_right, add_zero]
  rw [epipolarForm_eq h, Vec3.homogeneous_perspective hp, Vec3.homogeneous_perspective hq, Quat.rotate_scale,
    Vec3.cross_scale, Vec3.dot_scale, Vec3.dot_comm, Vec3.dot_scale, Vec3.dot_comm, htriple, zero_mul, zero_mul]

theorem epipolarForm_scale (s : ℝ) :
    epipolarForm rotation (trans.scale s) x1 x2 = epipolarForm rotation trans x1 x2 * s := by
  rw [epipolarForm, epipolarForm, Mat3.skew_scale, Mat3.scale_mul, Mat3.scale_mulVec, Vec3.dot_scale]

theorem sampsonDenominator_scale (s : ℝ) :
    sampsonDenominator rotation (trans.scale s) x1 x2 = sampsonDenominator rotation trans x1 x2 * s ^ 2 := by
  have htranspose : ∀ m : Mat3 ℝ, (m.scale s).transpose = m.transpose.scale s := fun _ => rfl
  simp only [sampsonDenominator, Mat3.skew_scale, Mat3.scale_mul, htranspose, Mat3.scale_mulVec]
  simp only [Vec3.scale]
  ring

/-- The residual of a correspondence that meets the epipolar constraint. -/
theorem evaluate_of_epipolarForm (hform : epipolarForm rotation trans x1 x2 = 0) :
    (relativePose x1 x2).evaluate [rotation.toList, trans.toList] = .ok [0] := by
  refine Factor.evaluate_eq_ok.2 ⟨rfl, ?_⟩
  change [sampsonError rotation trans x1 x2] = [0]
  rw [sampsonError_eq, hform, zero_mul, zero_div]

end Factor

end MultiView
