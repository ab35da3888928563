import Mathlib
import MultiView.Proofs.Geometry.RotationMatrix

/-!
# The quaternion of a rotation matrix

The products of any two components of a unit quaternion are linear in its matrix (`Mat3.products`). From any matrix
`Quat.ofMat3` takes a row of these products whose square is positive, and divides it by twice the root of that
(`Quat.exists_components_ofMat3`). In exact arithmetic the products of a rotation matrix are those of a vector
(`Mat3.products_mul`), so the row is that vector up to its length: the quaternion has unit length and the matrix it came
from (`Quat.toMat3_ofMat3`).
-/

namespace MultiView

/-- The rows of a matrix whose columns are a frame. -/
theorem Vec3.Frame.rows {b1 b2 b3 : Vec3 ℝ} (h : Frame b1 b2 b3) :
    Frame (Mat3.ofColumns b1 b2 b3).r0 (Mat3.ofColumns b1 b2 b3).r1 (Mat3.ofColumns b1 b2 b3).r2 := by
  have hx := h.resolve xAxis
  have hy := h.resolve yAxis
  have hz := h.resolve zAxis
  simp only [Vec3.ext_iff, add_x, add_y, add_z, scale, dot, xAxis, yAxis, zAxis, mul_one, mul_zero, add_zero,
    zero_add] at hx hy hz
  -- the components of the columns' cross products are those of the rows'
  have hcross := h.cross
  have hcross' := h.cycle.cross
  have hcross'' := h.cycle.cycle.cross
  simp only [Vec3.ext_iff, Vec3.cross] at hcross hcross' hcross''
  refine ⟨norm_eq_one.2 hx.1, norm_eq_one.2 hy.2.1, norm_eq_one.2 hz.2.2, hy.1, hx.2.2, hy.2.2, ?_⟩
  ext <;> simp only [Vec3.cross, Mat3.ofColumns] <;> linarith

namespace Mat3

/-- Four times the products of the components `x`, `y`, `z`, `w` of a unit quaternion, from its matrix. -/
def products (m : Mat3 ℝ) : Fin 4 → Fin 4 → ℝ :=
  ![![1 + m.r0.x - m.r1.y - m.r2.z, m.r1.x + m.r0.y, m.r0.z + m.r2.x, m.r2.y - m.r1.z],
    ![m.r0.y + m.r1.x, 1 + m.r1.y - m.r0.x - m.r2.z, m.r1.z + m.r2.y, m.r0.z - m.r2.x],
    ![m.r0.z + m.r2.x, m.r1.z + m.r2.y, 1 + m.r2.z - m.r0.x - m.r1.y, m.r1.x - m.r0.y],
    ![m.r2.y - m.r1.z, m.r0.z - m.r2.x, m.r1.x - m.r0.y, m.r0.x + m.r1.y + m.r2.z + 1]]

variable {b1 b2 b3 : Vec3 ℝ}

/-- Of a rotation matrix, they are the products of the components of a vector: any two rows are proportional. -/
theorem products_mul (h : Vec3.Frame b1 b2 b3) (p i j : Fin 4) :
    (ofColumns b1 b2 b3).products p i * (ofColumns b1 b2 b3).products p j =
      (ofColumns b1 b2 b3).products p p * (ofColumns b1 b2 b3).products i j := by
  have hcross := h.cross
  have hcross' := h.cycle.cross
  have hcross'' := h.cycle.cycle.cross
  obtain ⟨hn1, hn2, hn3, hd1, hd2, hd3, -⟩ := h.rows
  obtain ⟨hc1, hc2, hc3, he1, he2, he3, -⟩ := h
  simp only [Vec3.norm_eq_one, Vec3.normSq, Vec3.dot, ofColumns, Vec3.cross, Vec3.ext_iff] at *
  -- each of the equations is a sum of those of the frames
  fin_cases p <;> fin_cases i <;> fin_cases j <;>
    simp only [products, Fin.mk_zero, Fin.mk_one, Fin.isValue, Fin.reduceFinMk, Matrix.cons_val, Matrix.cons_val_zero,
      Matrix.cons_val_one] <;>
    linarith

end Mat3

namespace Quat

/-- The components of a quaternion, the real part last. -/
def components (q : Quat ℝ) : Fin 4 → ℝ := ![q.x, q.y, q.z, q.w]

theorem quarter_doubleRoot {s : ℝ} (hs : 0 < s) :
    Scalar.two * √s / (Scalar.two * Scalar.two) = s / (Scalar.two * √s) := by
  have hroot := Real.mul_self_sqrt hs.le
  have htwo : (Scalar.two : ℝ) ≠ 0 := by
    rw [Scalar.two_eq]
    exact two_ne_zero
  rw [div_eq_div_iff (mul_ne_zero htwo htwo) (mul_ne_zero htwo (Real.sqrt_pos.2 hs).ne')]
  linear_combination Scalar.two * Scalar.two * hroot

/-- The quaternion of a matrix is a row of the products, divided by twice the root of its own square. -/
theorem exists_components_ofMat3 (m : Mat3 ℝ) : ∃ p, 0 < m.products p p ∧
    ∀ i, (ofMat3 m).components i = m.products p i / (Scalar.two * √(m.products p p)) := by
  by_cases htrace : 0 < m.r0.x + m.r1.y + m.r2.z
  · have hpivot : 0 < m.r0.x + m.r1.y + m.r2.z + 1 := by linarith
    have hq : ofMat3 m = _ := if_pos htrace
    refine ⟨3, hpivot, fun i => ?_⟩
    rw [hq]
    fin_cases i
    exacts [rfl, rfl, rfl, quarter_doubleRoot hpivot]
  by_cases hx : m.r1.y < m.r0.x ∧ m.r2.z < m.r0.x
  · have hpivot : 0 < 1 + m.r0.x - m.r1.y - m.r2.z := by linarith
    have hq : ofMat3 m = _ := (if_neg htrace).trans (if_pos hx)
    refine ⟨0, hpivot, fun i => ?_⟩
    rw [hq]
    fin_cases i
    exacts [quarter_doubleRoot hpivot, rfl, rfl, rfl]
  by_cases hy : m.r2.z < m.r1.y
  · have hle : m.r0.x ≤ m.r1.y := not_lt.1 fun h => hx ⟨h, hy.trans h⟩
    have hpivot : 0 < 1 + m.r1.y - m.r0.x - m.r2.z := by linarith
    have hq : ofMat3 m = _ := (if_neg htrace).trans ((if_neg hx).trans (if_pos hy))
    refine ⟨1, hpivot, fun i => ?_⟩
    rw [hq]
    fin_cases i
    exacts [rfl, quarter_doubleRoot hpivot, rfl, rfl]
  · have hle : m.r0.x ≤ m.r2.z := not_lt.1 fun h => hx ⟨(not_lt.1 hy).trans_lt h, h⟩
    have hpivot : 0 < 1 + m.r2.z - m.r0.x - m.r1.y := by linarith
    have hq : ofMat3 m = _ := (if_neg htrace).trans ((if_neg hx).trans (if_neg hy))
    refine ⟨2, hpivot, fun i => ?_⟩
    rw [hq]
    fin_cases i
    exacts [rfl, rfl, quarter_doubleRoot hpivot, rfl]

variable {b1 b2 b3 : Vec3 ℝ}

/-- The products of the quaternion's components are those of the matrix. -/
theorem components_mul (h : Vec3.Frame b1 b2 b3) (i j : Fin 4) :
    4 * ((ofMat3 (Mat3.ofColumns b1 b2 b3)).components i * (ofMat3 (Mat3.ofColumns b1 b2 b3)).components j) =
      (Mat3.ofColumns b1 b2 b3).products i j := by
  obtain ⟨p, hpivot, hq⟩ := exists_components_ofMat3 (Mat3.ofColumns b1 b2 b3)
  have hproducts := Mat3.products_mul h p i j
  have hroot := Real.mul_self_sqrt hpivot.le
  rw [hq, hq, Scalar.two_eq]
  generalize √((Mat3.ofColumns b1 b2 b3).products p p) = r at hroot
  rw [← hroot] at hproducts hpivot
  have hne : r ≠ 0 := left_ne_zero_of_mul hpivot.ne'
  rw [div_mul_div_comm, hproducts]
  field_simp
  ring

/-- The quaternion of a rotation matrix has unit length, and the matrix that it came from. -/
theorem toMat3_ofMat3 (h : Vec3.Frame b1 b2 b3) : (ofMat3 (Mat3.ofColumns b1 b2 b3)).norm = 1 ∧
    (ofMat3 (Mat3.ofColumns b1 b2 b3)).toMat3 = Mat3.ofColumns b1 b2 b3 := by
  have hmul := components_mul h
  generalize Mat3.ofColumns b1 b2 b3 = m at hmul
  generalize ofMat3 m = q at hmul
  have hxx : 4 * (q.x * q.x) = 1 + m.r0.x - m.r1.y - m.r2.z := hmul 0 0
  have hyy : 4 * (q.y * q.y) = 1 + m.r1.y - m.r0.x - m.r2.z := hmul 1 1
  have hzz : 4 * (q.z * q.z) = 1 + m.r2.z - m.r0.x - m.r1.y := hmul 2 2
  have hww : 4 * (q.w * q.w) = m.r0.x + m.r1.y + m.r2.z + 1 := hmul 3 3
  have hxy : 4 * (q.x * q.y) = m.r1.x + m.r0.y := hmul 0 1
  have hxz : 4 * (q.x * q.z) = m.r0.z + m.r2.x := hmul 0 2
  have hyz : 4 * (q.y * q.z) = m.r1.z + m.r2.y := hmul 1 2
  have hwx : 4 * (q.w * q.x) = m.r2.y - m.r1.z := hmul 3 0
  have hwy : 4 * (q.w * q.y) = m.r0.z - m.r2.x := hmul 3 1
  have hwz : 4 * (q.w * q.z) = m.r1.x - m.r0.y := hmul 3 2
  have hdivisor : q.w * q.w + q.x * q.x + q.y * q.y + q.z * q.z = 1 := by linarith
  constructor
  · rw [norm_eq_one, normSq]
    linarith
  · ext <;> simp only [toMat3, hdivisor, Mat3.scale, Vec3.scale, Scalar.two, div_one, mul_one] <;> linarith

/-- It takes the axes to the columns. -/
theorem rotate_ofMat3 (h : Vec3.Frame b1 b2 b3) (v : Vec3 ℝ) :
    (ofMat3 (Mat3.ofColumns b1 b2 b3)).rotate v = b1.scale v.x + b2.scale v.y + b3.scale v.z := by
  obtain ⟨hunit, hmatrix⟩ := toMat3_ofMat3 h
  rw [← toMat3_mulVec hunit, hmatrix]
  rfl

end Quat

end MultiView
