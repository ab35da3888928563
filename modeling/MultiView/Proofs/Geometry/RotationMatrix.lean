import Mathlib
import MultiView.Proofs.Geometry.Matrix

/-!
# The rotation of a quaternion as a matrix and as an operator

In exact arithmetic the matrix of a nonzero quaternion depends on its direction only (`Quat.toMat3_scale`), so what
holds of the operator of a unit quaternion holds of the matrix of every nonzero one: products of quaternions become
products of matrices (`Quat.toMat3_mul`), the conjugate becomes the transpose (`Quat.toMat3_conj`), and the matrix is
orthogonal with determinant one (`Quat.toMatrix_mem_specialOrthogonalGroup`). Rotating keeps inner products and cross
products (`Quat.dot_rotate`, `Quat.cross_rotate`).
-/

namespace MultiView

/-! ## Matrices by what they do to vectors -/

namespace Mat3

variable {a b : Mat3 ℝ}

/-- Matrices that act alike are equal. -/
theorem ext_mulVec (h : ∀ v, a.mulVec v = b.mulVec v) : a = b := by
  have hx := h Vec3.xAxis
  have hy := h Vec3.yAxis
  have hz := h Vec3.zAxis
  simp only [mulVec, Vec3.dot, Vec3.xAxis, Vec3.yAxis, Vec3.zAxis, mul_one, mul_zero, add_zero, zero_add,
    Vec3.mk.injEq] at hx hy hz
  exact Mat3.ext (Vec3.ext hx.1 hy.1 hz.1) (Vec3.ext hx.2.1 hy.2.1 hz.2.1) (Vec3.ext hx.2.2 hy.2.2 hz.2.2)

/-- The matrix as one of Mathlib's. -/
def toMatrix (m : Mat3 ℝ) : Matrix (Fin 3) (Fin 3) ℝ :=
  !![m.r0.x, m.r0.y, m.r0.z; m.r1.x, m.r1.y, m.r1.z; m.r2.x, m.r2.y, m.r2.z]

theorem toMatrix_mul (a b : Mat3 ℝ) : (a.mul b).toMatrix = a.toMatrix * b.toMatrix := by
  ext i j
  fin_cases i <;> fin_cases j <;>
    simp [toMatrix, mul, mulVec, transpose, Vec3.dot, Matrix.mul_apply, Fin.sum_univ_three] <;> ring

theorem toMatrix_transpose (m : Mat3 ℝ) : m.transpose.toMatrix = m.toMatrix.transpose := by
  ext i j
  fin_cases i <;> fin_cases j <;> rfl

/-- The matrix that moves nothing. -/
noncomputable def one : Mat3 ℝ := ⟨Vec3.xAxis, Vec3.yAxis, Vec3.zAxis⟩

theorem one_mulVec (v : Vec3 ℝ) : one.mulVec v = v := by
  ext <;> simp [one, mulVec, Vec3.dot, Vec3.xAxis, Vec3.yAxis, Vec3.zAxis]

theorem toMatrix_one : one.toMatrix = 1 := by
  ext i j
  fin_cases i <;> fin_cases j <;> simp [one, toMatrix, Vec3.xAxis, Vec3.yAxis, Vec3.zAxis]

/-- The determinant is the volume that the images of the axes span. -/
theorem det_toMatrix (m : Mat3 ℝ) : m.toMatrix.det =
    (m.mulVec Vec3.xAxis).dot ((m.mulVec Vec3.yAxis).cross (m.mulVec Vec3.zAxis)) := by
  rw [Matrix.det_fin_three]
  simp [toMatrix, mulVec, Vec3.dot, Vec3.cross, Vec3.xAxis, Vec3.yAxis, Vec3.zAxis]
  ring

end Mat3

namespace Quat

/-! ## Lengths of quaternions -/

def zero : Quat ℝ := ⟨0, 0, 0, 0⟩

/-- The quaternion with its components multiplied by a number. -/
def scale (q : Quat ℝ) (s : ℝ) : Quat ℝ := ⟨q.x * s, q.y * s, q.z * s, q.w * s⟩

variable {a b q : Quat ℝ} {s t : ℝ}

theorem norm_pos (h : q ≠ zero) : 0 < q.norm := by
  have hquaternion : q.toQuaternion ≠ 0 := fun h0 => h
    (Quat.ext (congrArg QuaternionAlgebra.imI h0) (congrArg QuaternionAlgebra.imJ h0)
      (congrArg QuaternionAlgebra.imK h0) (congrArg QuaternionAlgebra.re h0))
  refine Real.sqrt_pos.2 (lt_of_le_of_ne ?_ (Ne.symm ?_))
  · rw [← normSq_toQuaternion]
    exact Quaternion.normSq_nonneg
  · rw [← normSq_toQuaternion]
    exact Quaternion.normSq_ne_zero.2 hquaternion

theorem ne_zero_of_norm (h : q.norm = 1) : q ≠ zero := by
  rintro rfl
  simp [norm_eq_one, normSq, zero] at h

theorem conj_ne_zero (h : q ≠ zero) : q.conj ≠ zero := fun h0 => h
  (Quat.ext (neg_eq_zero.1 (congrArg x h0)) (neg_eq_zero.1 (congrArg y h0)) (neg_eq_zero.1 (congrArg z h0))
    (congrArg w h0 : q.conj.w = 0))

theorem norm_scale (q : Quat ℝ) (s : ℝ) : (q.scale s).norm = q.norm * |s| := by
  have hnormSq : (q.scale s).normSq = q.normSq * s ^ 2 := by
    simp only [normSq, scale]
    ring
  calc (q.scale s).norm = Real.sqrt (q.normSq * s ^ 2) := congrArg Real.sqrt hnormSq
    _ = q.norm * |s| := by rw [Real.sqrt_mul' _ (sq_nonneg s), Real.sqrt_sq_eq_abs]; rfl

theorem normalize_eq_scale (q : Quat ℝ) : q.normalize = q.scale q.norm⁻¹ := by
  ext <;> exact div_eq_mul_inv _ _

/-- The direction does not depend on the length. -/
theorem normalize_scale (q : Quat ℝ) {s : ℝ} (hs : 0 < s) : (q.scale s).normalize = q.normalize := by
  have hdiv : ∀ x : ℝ, x * s / (q.norm * s) = x / q.norm := fun x => mul_div_mul_right x q.norm hs.ne'
  rw [normalize, norm_scale, abs_of_pos hs]
  exact Quat.ext (hdiv q.x) (hdiv q.y) (hdiv q.z) (hdiv q.w)

theorem norm_normalize (h : q ≠ zero) : q.normalize.norm = 1 := by
  rw [normalize_eq_scale, norm_scale, abs_of_pos (inv_pos.2 (norm_pos h)), mul_inv_cancel₀ (norm_pos h).ne']

/-- A nonzero quaternion is its direction, made as long as it is. -/
theorem scale_normalize (h : q ≠ zero) : q.normalize.scale q.norm = q := by
  ext <;> exact div_mul_cancel₀ _ (norm_pos h).ne'

theorem scale_mul_scale (a b : Quat ℝ) (s t : ℝ) : (a.scale s).mul (b.scale t) = (a.mul b).scale (s * t) := by
  ext <;> simp only [mul, scale] <;> ring

/-! ## Matrices of quaternions -/

/-- The matrix depends on the direction only. -/
theorem toMat3_scale (q : Quat ℝ) (hs : s ≠ 0) : (q.scale s).toMat3 = q.toMat3 := by
  have hdivisor : q.w * s * (q.w * s) + q.x * s * (q.x * s) + q.y * s * (q.y * s) + q.z * s * (q.z * s) =
      (q.w * q.w + q.x * q.x + q.y * q.y + q.z * q.z) * s ^ 2 := by ring
  have hentry : ∀ e n : ℝ, e * s ^ 2 * (1 / (n * s ^ 2)) = e * (1 / n) := fun e n => by
    rw [mul_one_div, mul_one_div, mul_div_mul_right _ _ (pow_ne_zero 2 hs)]
  ext <;> simp only [toMat3, scale, Mat3.scale, Vec3.scale, hdivisor] <;>
    refine .trans (congrArg (· * _) ?_) (hentry _ _) <;> ring

theorem toMat3_normalize (h : q ≠ zero) : q.normalize.toMat3 = q.toMat3 := by
  rw [← toMat3_scale q.normalize (norm_pos h).ne', scale_normalize h]

theorem toMat3_mul (ha : a ≠ zero) (hb : b ≠ zero) : (a.mul b).toMat3 = a.toMat3.mul b.toMat3 := by
  have hunit : (a.normalize.mul b.normalize).toMat3 = a.normalize.toMat3.mul b.normalize.toMat3 := by
    refine Mat3.ext_mulVec fun v => ?_
    have hna := norm_normalize ha
    have hnb := norm_normalize hb
    rw [toMat3_mulVec (norm_mul hna hnb), rotate_mul hna hnb, Mat3.mul_mulVec, toMat3_mulVec hnb, toMat3_mulVec hna]
  calc (a.mul b).toMat3
      = ((a.normalize.mul b.normalize).scale (a.norm * b.norm)).toMat3 := by
        rw [← scale_mul_scale, scale_normalize ha, scale_normalize hb]
    _ = a.normalize.toMat3.mul b.normalize.toMat3 := by
        rw [toMat3_scale _ (mul_pos (norm_pos ha) (norm_pos hb)).ne', hunit]
    _ = a.toMat3.mul b.toMat3 := by rw [toMat3_normalize ha, toMat3_normalize hb]

theorem toMat3_conj (q : Quat ℝ) : q.conj.toMat3 = q.toMat3.transpose := by
  ext <;> simp only [toMat3, conj, Mat3.transpose, Mat3.scale, Vec3.scale] <;> ring

/-! ## Rotations keep lengths and angles -/

/-- The conjugate is the adjoint. -/
theorem dot_rotate_left (q : Quat ℝ) (u v : Vec3 ℝ) : (q.rotate u).dot v = u.dot (q.conj.rotate v) := by
  simp only [rotate, conj, im, Vec3.dot, Vec3.cross, Vec3.scale, Vec3.add_x, Vec3.add_y, Vec3.add_z]
  ring

theorem dot_rotate (h : q.norm = 1) (u v : Vec3 ℝ) : (q.rotate u).dot (q.rotate v) = u.dot v := by
  rw [dot_rotate_left, rotate_conj_rotate h]

end Quat

/-- A cross product is half a commutator. -/
theorem Vec3.toQuaternion_cross (u v : Vec3 ℝ) : (u.cross v).toQuaternion =
    (2⁻¹ : ℝ) • (u.toQuaternion * v.toQuaternion - v.toQuaternion * u.toQuaternion) := by
  ext <;> simp [cross] <;> ring

namespace Quat

variable {q : Quat ℝ}

theorem cross_rotate (h : q.norm = 1) (u v : Vec3 ℝ) : (q.rotate u).cross (q.rotate v) = q.rotate (u.cross v) := by
  have hstar : star q.toQuaternion * q.toQuaternion = 1 := by
    rw [Quaternion.star_mul_self, normSq_toQuaternion, norm_eq_one.1 h, Quaternion.coe_one]
  -- conjugation by a unit quaternion is multiplicative, so it goes through the commutator
  have hmul : ∀ u v : Vec3 ℝ, (q.rotate u).toQuaternion * (q.rotate v).toQuaternion =
      q.toQuaternion * (u.toQuaternion * v.toQuaternion) * star q.toQuaternion := fun u v => by
    rw [rotate_toQuaternion h, rotate_toQuaternion h]
    calc q.toQuaternion * u.toQuaternion * star q.toQuaternion * (q.toQuaternion * v.toQuaternion * star q.toQuaternion)
        = q.toQuaternion * u.toQuaternion * (star q.toQuaternion * q.toQuaternion) *
            (v.toQuaternion * star q.toQuaternion) := by simp only [mul_assoc]
      _ = q.toQuaternion * (u.toQuaternion * v.toQuaternion) * star q.toQuaternion := by
        rw [hstar, mul_one]
        simp only [mul_assoc]
  apply Vec3.toQuaternion_injective
  rw [Vec3.toQuaternion_cross, hmul, hmul, rotate_toQuaternion h, Vec3.toQuaternion_cross, ← sub_mul, ← mul_sub,
    mul_smul_comm, smul_mul_assoc]

/-! ## Rotation matrices -/

/-- The transpose of a rotation matrix turns back. -/
theorem toMat3_mulVec_transpose (h : q ≠ zero) (v : Vec3 ℝ) : q.toMat3.mulVec (q.toMat3.transpose.mulVec v) = v := by
  have hunit := norm_normalize h
  rw [← toMat3_normalize h, ← toMat3_conj, toMat3_mulVec (norm_conj hunit), toMat3_mulVec hunit,
    rotate_rotate_conj hunit]

theorem cross_toMat3_mulVec (h : q ≠ zero) (u v : Vec3 ℝ) :
    (q.toMat3.mulVec u).cross (q.toMat3.mulVec v) = q.toMat3.mulVec (u.cross v) := by
  have hunit := norm_normalize h
  rw [← toMat3_normalize h, toMat3_mulVec hunit, toMat3_mulVec hunit, toMat3_mulVec hunit, cross_rotate hunit]

theorem dot_toMat3_mulVec (h : q ≠ zero) (u v : Vec3 ℝ) :
    (q.toMat3.mulVec u).dot (q.toMat3.mulVec v) = u.dot v := by
  have hunit := norm_normalize h
  rw [← toMat3_normalize h, toMat3_mulVec hunit, toMat3_mulVec hunit, dot_rotate hunit]

theorem toMatrix_mem_specialOrthogonalGroup (h : q ≠ zero) :
    q.toMat3.toMatrix ∈ Matrix.specialOrthogonalGroup (Fin 3) ℝ := by
  have hinverse : q.toMat3.mul q.toMat3.transpose = Mat3.one := Mat3.ext_mulVec fun v => by
    rw [Mat3.mul_mulVec, toMat3_mulVec_transpose h, Mat3.one_mulVec]
  refine Matrix.mem_specialOrthogonalGroup_iff.2 ⟨(Matrix.mem_orthogonalGroup_iff (Fin 3) ℝ).2 ?_, ?_⟩
  · rw [← Mat3.toMatrix_transpose, ← Mat3.toMatrix_mul, hinverse, Mat3.toMatrix_one]
  · rw [Mat3.det_toMatrix, cross_toMat3_mulVec h, dot_toMat3_mulVec h]
    norm_num [Vec3.dot, Vec3.cross, Vec3.xAxis, Vec3.yAxis, Vec3.zAxis]

/-- The cross product with a rotated vector, in the rotated frame. -/
theorem skew_toMat3_mulVec (h : q ≠ zero) (p : Vec3 ℝ) :
    Mat3.skew (q.toMat3.mulVec p) = (q.toMat3.mul (Mat3.skew p)).mul q.toMat3.transpose :=
  Mat3.ext_mulVec fun v =>
    calc (Mat3.skew (q.toMat3.mulVec p)).mulVec v
        = (q.toMat3.mulVec p).cross (q.toMat3.mulVec (q.toMat3.transpose.mulVec v)) := by
          rw [Mat3.skew_mulVec, toMat3_mulVec_transpose h]
      _ = ((q.toMat3.mul (Mat3.skew p)).mul q.toMat3.transpose).mulVec v := by
          rw [cross_toMat3_mulVec h, Mat3.mul_mulVec, Mat3.mul_mulVec, Mat3.skew_mulVec]

end Quat

/-- The inverse of a pose, with the rotation back as a matrix. -/
theorem Pose.inverse_eq {p : Pose ℝ} (h : p.rot.norm = 1) :
    p.inverse = ⟨p.rot.conj, -(p.rot.conj.toMat3.mulVec p.trans)⟩ := by
  rw [inverse, ← Mat3.mulVec_neg, Quat.toMat3_mulVec (Quat.norm_conj h)]

namespace Quat

/-- The matrix of a nonzero quaternion is the rotation that the unit quaternion of its direction makes: a homomorphism
into the rotations, which act on vectors as the quaternions do. -/
theorem toMat3_isRotation {a b : Quat ℝ} (ha : a ≠ zero) (hb : b ≠ zero) {s : ℝ} (hs : s ≠ 0) :
    a.toMat3.toMatrix ∈ Matrix.specialOrthogonalGroup (Fin 3) ℝ ∧
    (a.scale s).toMat3 = a.toMat3 ∧
    (a.mul b).toMat3 = a.toMat3.mul b.toMat3 ∧
    a.conj.toMat3 = a.toMat3.transpose ∧
    (∀ p, Mat3.skew (a.toMat3.mulVec p) = (a.toMat3.mul (Mat3.skew p)).mul a.toMat3.transpose) ∧
    (a.norm = 1 → ∀ p q, a.rotate p = a.toMat3.mulVec p ∧ (a.rotate p).dot (a.rotate q) = p.dot q ∧
      (a.rotate p).cross (a.rotate q) = a.rotate (p.cross q)) :=
  ⟨toMatrix_mem_specialOrthogonalGroup ha, toMat3_scale a hs, toMat3_mul ha hb, toMat3_conj a, skew_toMat3_mulVec ha,
    fun hunit p q => ⟨(toMat3_mulVec hunit p).symm, dot_rotate hunit p q, cross_rotate hunit p q⟩⟩

/-- A unit quaternion. -/
noncomputable def turned : Quat ℝ := ⟨0, 0, Scalar.decimal 6 1, Scalar.decimal 8 1⟩

/-- A quaternion that is longer than a unit. -/
def long : Quat ℝ := ⟨1, -1, 0, 1⟩

theorem norm_turned : turned.norm = 1 := by
  rw [norm_eq_one]
  norm_num [turned, normSq, Scalar.decimal]

theorem toMat3_isRotation_turned : turned ≠ zero ∧ long ≠ zero ∧
    turned.toMat3.toMatrix ∈ Matrix.specialOrthogonalGroup (Fin 3) ℝ ∧
    (turned.scale (-1)).toMat3 = turned.toMat3 ∧ (turned.mul long).toMat3 = turned.toMat3.mul long.toMat3 ∧
    turned.norm = 1 ∧ turned.rotate Vec3.xAxis = turned.toMat3.mulVec Vec3.xAxis := by
  have hturned : turned ≠ zero := ne_zero_of_norm norm_turned
  have hlong : long ≠ zero := fun h => one_ne_zero (congrArg Quat.x h)
  obtain ⟨horthogonal, hscale, hmul, -, -, hunit⟩ :=
    toMat3_isRotation hturned hlong (neg_ne_zero.2 (one_ne_zero : (1 : ℝ) ≠ 0))
  exact ⟨hturned, hlong, horthogonal, hscale, hmul, norm_turned, (hunit norm_turned Vec3.xAxis Vec3.xAxis).1⟩

end Quat

end MultiView
