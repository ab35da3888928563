import Mathlib
import MultiView.Proofs.Geometry.Vector

/-!
# Matrices of cross products and rotations

In exact arithmetic a product of matrices acts as its factors one after the other (`Mat3.mul_mulVec`), a skew matrix
acts as a cross product (`Mat3.skew_mulVec`), and the matrix of a unit quaternion acts as the quaternion does
(`Quat.toMat3_mulVec`).
-/

namespace MultiView

namespace Mat3

variable (a b : Mat3 ℝ) (t u v : Vec3 ℝ) (s : ℝ)

theorem mul_mulVec : (a.mul b).mulVec v = a.mulVec (b.mulVec v) := by
  ext <;> simp only [mul, mulVec, transpose, Vec3.dot] <;> ring

theorem skew_mulVec : (skew t).mulVec v = t.cross v := by
  ext <;> simp only [skew, mulVec, Vec3.dot, Vec3.cross] <;> ring

theorem skew_scale : skew (t.scale s) = (skew t).scale s := by
  ext <;> simp [skew, scale, Vec3.scale]

theorem scale_mul : (a.scale s).mul b = (a.mul b).scale s := by
  ext <;> simp only [mul, mulVec, transpose, scale, Vec3.scale, Vec3.dot] <;> ring

theorem scale_mulVec : (a.scale s).mulVec v = (a.mulVec v).scale s := by
  ext <;> simp only [mulVec, scale, Vec3.scale, Vec3.dot] <;> ring

theorem transpose_transpose : a.transpose.transpose = a := rfl

theorem transpose_mul : (a.mul b).transpose = b.transpose.mul a.transpose := by
  ext <;> simp only [mul, mulVec, transpose, Vec3.dot] <;> ring

/-- The transpose is the adjoint. -/
theorem dot_transpose_mulVec : u.dot (a.transpose.mulVec v) = v.dot (a.mulVec u) := by
  simp only [mulVec, transpose, Vec3.dot]
  ring

theorem transpose_skew_mulVec : (skew t).transpose.mulVec v = -(t.cross v) := by
  ext <;> simp only [skew, mulVec, transpose, Vec3.dot, Vec3.cross, Vec3.neg_x, Vec3.neg_y, Vec3.neg_z] <;> ring

theorem mulVec_neg : a.mulVec (-v) = -(a.mulVec v) := by
  ext <;> simp only [mulVec, Vec3.dot, Vec3.neg_x, Vec3.neg_y, Vec3.neg_z] <;> ring

theorem skew_neg_mulVec : (skew (-t)).mulVec v = -(t.cross v) := by
  ext <;> simp only [skew, mulVec, Vec3.dot, Vec3.cross, Vec3.neg_x, Vec3.neg_y, Vec3.neg_z] <;> ring

end Mat3

/-- The matrix of a unit quaternion rotates. -/
theorem Quat.toMat3_mulVec {q : Quat ℝ} (h : q.norm = 1) (v : Vec3 ℝ) : q.toMat3.mulVec v = q.rotate v := by
  have hunit : q.x * q.x + q.y * q.y + q.z * q.z + q.w * q.w = 1 := norm_eq_one.1 h
  have hdivisor : q.w * q.w + q.x * q.x + q.y * q.y + q.z * q.z = 1 := by linarith
  -- the matrix squares the real part where the rotation leaves the vector as it is
  ext
  · simp only [toMat3, hdivisor, Mat3.mulVec, Mat3.scale, Vec3.dot, Vec3.scale, rotate, im, Vec3.cross, Scalar.two,
      Vec3.add_x]
    linear_combination v.x * hunit
  · simp only [toMat3, hdivisor, Mat3.mulVec, Mat3.scale, Vec3.dot, Vec3.scale, rotate, im, Vec3.cross, Scalar.two,
      Vec3.add_y]
    linear_combination v.y * hunit
  · simp only [toMat3, hdivisor, Mat3.mulVec, Mat3.scale, Vec3.dot, Vec3.scale, rotate, im, Vec3.cross, Scalar.two,
      Vec3.add_z]
    linear_combination v.z * hunit

end MultiView
