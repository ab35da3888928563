import Mathlib
import MultiView.Proofs.Manifold.Embedding
import MultiView.Proofs.Manifold.Sphere
import MultiView.Proofs.Scalar.Dual

/-!
# Jacobians of steps on the sphere

What `Sphere.plus` and `Sphere.minus` do on dual numbers at the base point itself. A short step is differentiated along
its tangent vector (`Sphere.plus_dual`), so the Jacobian of `plus` has the basis of the tangent plane for its columns.
Nearly equal points have the zero step as a constant (`Sphere.minus_dual`), so the Jacobian of `minus` is zero, although
that of a logarithm would undo the other (`Sphere.jacobians_at_base`).
-/

namespace MultiView

/-- The components of a vector. -/
def Vec2.component {α : Type} (v : Vec2 α) : Fin 2 → α := ![v.x, v.y]

/-- The components of a vector. -/
def Vec3.component {α : Type} (v : Vec3 α) : Fin 3 → α := ![v.x, v.y, v.z]

/-- A vector as duals, with derivative one at one component. -/
def Vec2.seed (v : Vec2 ℝ) (i : Fin 2) : Vec2 (Dual ℝ) :=
  ⟨⟨v.x, if i = 0 then 1 else 0⟩, ⟨v.y, if i = 1 then 1 else 0⟩⟩

/-- A vector as duals, with derivative one at one component. -/
def Vec3.seed (v : Vec3 ℝ) (i : Fin 3) : Vec3 (Dual ℝ) :=
  v.dual ⟨if i = 0 then 1 else 0, if i = 1 then 1 else 0, if i = 2 then 1 else 0⟩

namespace Sphere

/-- The derivatives of `plus` by the components of the step. -/
noncomputable def plusJacobian (x : Vec3 ℝ) (d : Vec2 ℝ) : Matrix (Fin 3) (Fin 2) ℝ :=
  Matrix.of fun i j => ((plus (x.map Dual.lift) (d.seed j)).component i).eps

/-- The derivatives of `minus` by the components of the point that is reached. -/
noncomputable def minusJacobian (y x : Vec3 ℝ) : Matrix (Fin 2) (Fin 3) ℝ :=
  Matrix.of fun i j => ((minus (y.seed j) (x.map Dual.lift)).component i).eps

variable {x : Vec3 ℝ}

/-! ## Constant points -/

theorem normalize_lift (hx : x.norm = 1) : (x.map Dual.lift).normalize = x.map Dual.lift := by
  rw [Dual.embeds_lift.normalize ⟨trivial, trivial⟩, Vec3.normalize_of_norm hx]

theorem tangentBasis_lift (x : Vec3 ℝ) :
    tangentBasis (x.map Dual.lift) = ((tangentBasis x).1.map Dual.lift, (tangentBasis x).2.map Dual.lift) :=
  Dual.embeds_lift.tangentBasis ⟨trivial, trivial⟩

/-! ## Plus -/

theorem cosSinc_zero_dual : cosSinc (0 : Dual ℝ) = (1, 1) := by
  have hsmall : (0 : Dual ℝ) < smallAngle * smallAngle := by
    change (0 : ℝ) < smallAngle * smallAngle
    exact mul_pos smallAngle_pos smallAngle_pos
  rw [cosSinc, if_pos hsmall]
  refine Prod.ext (Dual.ext ?_ ?_) (Dual.ext ?_ ?_) <;> simp

/-! A short step with derivative `e`: its tangent vector, that vector's length, and where it leads on the way. -/

theorem tangent_dual (x : Vec3 ℝ) (e : Vec2 ℝ) : ((tangentBasis x).1.map Dual.lift).scale ⟨0, e.x⟩ +
    ((tangentBasis x).2.map Dual.lift).scale ⟨0, e.y⟩ = Vec3.zero.dual (lift x e) := by
  ext <;> simp [Vec3.dual, Vec3.scale, Vec3.map, Vec3.zero, lift, mul_comm]

theorem normSq_zero_dual (e : Vec3 ℝ) : (Vec3.zero.dual e).normSq = 0 := by
  rw [Vec3.normSq_dual]
  ext <;> simp [Vec3.normSq, Vec3.dot, Vec3.zero]

theorem scale_one_add_dual (x e : Vec3 ℝ) :
    (x.map Dual.lift).scale 1 + (Vec3.zero.dual e).scale 1 = x.dual e := by
  ext <;> simp [Vec3.dual, Vec3.scale, Vec3.map, Vec3.zero]

/-- A short step moves the point along its tangent vector. -/
theorem plus_dual (hx : x.norm = 1) (e : Vec2 ℝ) :
    plus (x.map Dual.lift) ⟨⟨0, e.x⟩, ⟨0, e.y⟩⟩ = x.dual (lift x e) := by
  simp only [plus, normalize_lift hx, tangentBasis_lift, tangent_dual, normSq_zero_dual, cosSinc_zero_dual,
    scale_one_add_dual, Vec3.normalize_dual hx, Vec3.across_of_dot (dot_lift hx e)]

theorem plusJacobian_zero (hx : x.norm = 1) :
    plusJacobian x ⟨0, 0⟩ = (Matrix.of ![(tangentBasis x).1.component, (tangentBasis x).2.component]).transpose := by
  ext i j
  have hcolumn : plus (x.map Dual.lift) (Vec2.seed ⟨0, 0⟩ j) = _ :=
    plus_dual hx ⟨if j = 0 then 1 else 0, if j = 1 then 1 else 0⟩
  simp only [plusJacobian, Matrix.of_apply, hcolumn]
  fin_cases i <;> fin_cases j <;> simp [Vec3.component, Vec3.dual, lift, Vec3.scale]

/-! ## Minus -/

/-- The step to a point that is the same does not change with the point. -/
theorem minus_dual (hx : x.norm = 1) (e : Vec3 ℝ) : minus (x.dual e) (x.map Dual.lift) = ⟨0, 0⟩ := by
  have hdot : x.dot x = 1 := Vec3.norm_eq_one.1 hx
  -- both tests are of values only
  have hsame : ((x.map Dual.lift).cross (x.dual e).normalize).norm < smallAngle := by
    rw [Vec3.normalize_dual hx]
    change (x.cross x).norm < smallAngle
    rw [Vec3.norm_cross_of_dot hx hx (by rw [hdot, one_pow])]
    exact smallAngle_pos
  have hside : 0 < (x.map Dual.lift).dot (x.dual e).normalize := by
    rw [Vec3.normalize_dual hx]
    change 0 < x.dot x
    rw [hdot]
    exact one_pos
  simp only [minus, normalize_lift hx, tangentBasis_lift, if_pos hsame, if_pos hside]
  ext <;> simp [Vec3.dot, Vec3.zero]

theorem minusJacobian_self (hx : x.norm = 1) : minusJacobian x x = 0 := by
  ext i j
  simp only [minusJacobian, Matrix.of_apply, Vec3.seed, minus_dual hx]
  fin_cases i <;> rfl

/-! ## At the base point -/

theorem plusJacobian_transpose_mul (hx : x.norm = 1) :
    (plusJacobian x ⟨0, 0⟩).transpose * plusJacobian x ⟨0, 0⟩ = 1 := by
  have h := frame_tangentBasis hx
  have hcomponents : ∀ a b : Vec3 ℝ, ∑ k, a.component k * b.component k = a.dot b := fun a b => by
    rw [Fin.sum_univ_three]
    rfl
  rw [plusJacobian_zero hx, Matrix.transpose_transpose]
  ext i j
  rw [Matrix.mul_apply]
  fin_cases i <;> fin_cases j
  · exact (hcomponents _ _).trans (Vec3.norm_eq_one.1 h.norm_b1)
  · exact (hcomponents _ _).trans h.b1_dot_b2
  · exact (hcomponents _ _).trans ((Vec3.dot_comm _ _).trans h.b1_dot_b2)
  · exact (hcomponents _ _).trans (Vec3.norm_eq_one.1 h.norm_b2)

/-- At the base point the Jacobian of `plus` is the basis of the tangent plane, and its transpose undoes it; the
Jacobian of `minus` is zero, and so is the product of the two. -/
theorem jacobians_at_base (hx : x.norm = 1) :
    plusJacobian x ⟨0, 0⟩ = (Matrix.of ![(tangentBasis x).1.component, (tangentBasis x).2.component]).transpose ∧
      (plusJacobian x ⟨0, 0⟩).transpose * plusJacobian x ⟨0, 0⟩ = 1 ∧
      minusJacobian x x = 0 ∧ minusJacobian x x * plusJacobian x ⟨0, 0⟩ = 0 := by
  refine ⟨plusJacobian_zero hx, plusJacobian_transpose_mul hx, minusJacobian_self hx, ?_⟩
  rw [minusJacobian_self hx, Matrix.zero_mul]

theorem norm_zAxis : (Vec3.zAxis : Vec3 ℝ).norm = 1 := by
  rw [Vec3.norm_eq_one, Vec3.normSq, Vec3.zAxis]
  norm_num

theorem jacobians_at_base_zAxis :
    (plusJacobian Vec3.zAxis ⟨0, 0⟩).transpose * plusJacobian Vec3.zAxis ⟨0, 0⟩ = 1 ∧
      minusJacobian Vec3.zAxis Vec3.zAxis = 0 :=
  ⟨(jacobians_at_base norm_zAxis).2.1, (jacobians_at_base norm_zAxis).2.2.1⟩

/-- `minus` does not linearize to what undoes `plus`. -/
theorem minusJacobian_mul_plusJacobian_ne_one :
    (Vec3.zAxis : Vec3 ℝ).norm = 1 ∧
      minusJacobian Vec3.zAxis Vec3.zAxis * plusJacobian Vec3.zAxis ⟨0, 0⟩ ≠ 1 := by
  refine ⟨norm_zAxis, ?_⟩
  rw [minusJacobian_self norm_zAxis, Matrix.zero_mul]
  exact zero_ne_one

end Sphere

end MultiView
