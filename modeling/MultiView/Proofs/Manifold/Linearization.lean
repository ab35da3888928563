import Mathlib
import MultiView.Proofs.Manifold.Exponential
import MultiView.Proofs.Manifold.SphereJacobian

/-!
# Linear steps on the sphere

Differentiated at the zero step, `Sphere.plus` moves a unit vector along the basis of its tangent plane, one basis
vector for each component of the step (`Sphere.plus_seed`). The squared length of the zero step is zero with
derivative zero, so the step is a short one, and neither its value nor its derivative divides by an angle: in guarded
arithmetic both are known (`Sphere.plus_dual_known`). The columns of the Jacobian are orthonormal and span the tangent
plane (`Sphere.mem_span_plusJacobian`).
-/

namespace MultiView

open Guarded (known)

namespace Vec3

/-- What has a length can be divided by it, and the derivative with it. -/
theorem directed_dual {v : Vec3 ℝ} (hv : 0 < v.norm) (e : Vec3 ℝ) : (v.dual e).Directed fun a => 0 < a.re :=
  ⟨(directed_of_norm hv).normSq, hv⟩

theorem component_injective : Function.Injective (component : Vec3 ℝ → Fin 3 → ℝ) := fun _ _ h =>
  Vec3.ext (congrFun h 0) (congrFun h 1) (congrFun h 2)

end Vec3

namespace Sphere

/-- The basis of the tangent plane, by number. -/
noncomputable def basis (x : Vec3 ℝ) : Fin 2 → Vec3 ℝ := ![(tangentBasis x).1, (tangentBasis x).2]

variable {x : Vec3 ℝ}

/-! ## The derivative of a step -/

/-- The zero step with one component seeded has the basis vector for its tangent vector's derivative. -/
theorem exists_seed (x : Vec3 ℝ) (i : Fin 2) :
    ∃ e : Vec2 ℝ, Vec2.seed ⟨0, 0⟩ i = ⟨⟨0, e.x⟩, ⟨0, e.y⟩⟩ ∧ lift x e = basis x i := by
  refine ⟨⟨if i = 0 then 1 else 0, if i = 1 then 1 else 0⟩, rfl, ?_⟩
  fin_cases i <;> ext <;> simp [lift, basis, Vec3.scale]

theorem plus_seed (hx : x.norm = 1) (i : Fin 2) :
    plus (x.map Dual.lift) (Vec2.seed ⟨0, 0⟩ i) = x.dual (basis x i) := by
  obtain ⟨e, hseed, hlift⟩ := exists_seed x i
  rw [hseed, plus_dual hx, hlift]

/-- Neither a short step nor its derivative divides by zero. -/
theorem plus_dual_known (hx : x.norm = 1) (e : Vec2 ℝ) :
    plus ((x.map Dual.lift).map (Dual.map known)) (Vec2.map (Dual.map known) ⟨⟨0, e.x⟩, ⟨0, e.y⟩⟩) =
      (x.dual (lift x e)).map (Dual.map known) := by
  have hpos : 0 < x.norm := hx ▸ one_pos
  have hflat : cosSinc (Vec3.zero.dual (lift x e)).normSq = (1, 1) := by rw [normSq_zero_dual, cosSinc_zero_dual]
  rw [← plus_dual hx]
  refine Guarded.embeds_known.dual.plus (Vec3.directed_dual hpos Vec3.zero) (normalize_lift hx) ?_ (tangentBasis_lift x)
    (tangent_dual x e) ?_ ?_ hflat ?_
  · rw [Dual.embeds_lift.flattestAxis, Dual.embeds_lift.dot, Dual.embeds_lift.scale, Dual.embeds_lift.vec3_sub]
    exact Vec3.directed_dual (directed_across_flattestAxis hx).norm Vec3.zero
  · norm_num [Scalar.ofNat, Scalar.decimal, Dual.lift]
  · -- the test for a short step looks at the value, which is zero
    intro hlong
    refine absurd ?_ hlong
    rw [normSq_zero_dual]
    exact mul_pos smallAngle_pos smallAngle_pos
  · rw [scale_one_add_dual]
    exact Vec3.directed_dual hpos _

/-! ## The tangent plane -/

theorem plusJacobian_col (hx : x.norm = 1) (i : Fin 2) : (plusJacobian x ⟨0, 0⟩).col i = (basis x i).component := by
  rw [plusJacobian_zero hx]
  fin_cases i <;> rfl

/-- The columns of the Jacobian span the vectors at right angles to the point. -/
theorem mem_span_plusJacobian (hx : x.norm = 1) (v : Vec3 ℝ) :
    v.component ∈ Submodule.span ℝ (Set.range (plusJacobian x ⟨0, 0⟩).col) ↔ x.dot v = 0 := by
  have hcolumns : Set.range (plusJacobian x ⟨0, 0⟩).col =
      {(tangentBasis x).1.component, (tangentBasis x).2.component} := by
    ext c
    simp [Fin.exists_fin_two, plusJacobian_col hx, basis, eq_comm]
  have hlift : ∀ a b : ℝ, a • (tangentBasis x).1.component + b • (tangentBasis x).2.component =
      (lift x ⟨a, b⟩).component := fun a b => by
    ext i
    fin_cases i <;> simp [Vec3.component, lift, Vec3.scale, mul_comm]
  rw [hcolumns, Submodule.mem_span_pair]
  constructor
  · rintro ⟨a, b, h⟩
    rw [hlift] at h
    rw [← Vec3.component_injective h, dot_lift hx]
  · intro hv
    exact ⟨_, _, (hlift _ _).trans (congrArg _ (lift_coordinates hx hv))⟩

/-- Differentiated at the zero step, `plus` keeps its point and has the basis of the tangent plane for derivatives,
all of it defined; the columns of its Jacobian are orthonormal and span that plane. -/
theorem plus_linearized (hx : x.norm = 1) :
    (∀ i, plus (x.map Dual.lift) (Vec2.seed ⟨0, 0⟩ i) = x.dual (basis x i) ∧
        plus ((x.map Dual.lift).map (Dual.map known)) ((Vec2.seed ⟨0, 0⟩ i).map (Dual.map known)) =
          (x.dual (basis x i)).map (Dual.map known)) ∧
      (plusJacobian x ⟨0, 0⟩).transpose * plusJacobian x ⟨0, 0⟩ = 1 ∧
      ∀ v : Vec3 ℝ, v.component ∈ Submodule.span ℝ (Set.range (plusJacobian x ⟨0, 0⟩).col) ↔ x.dot v = 0 := by
  refine ⟨fun i => ⟨plus_seed hx i, ?_⟩, plusJacobian_transpose_mul hx, mem_span_plusJacobian hx⟩
  obtain ⟨e, hseed, hlift⟩ := exists_seed x i
  rw [hseed, plus_dual_known hx, hlift]

theorem plus_linearized_slanted :
    plus (slanted.map Dual.lift) (Vec2.seed ⟨0, 0⟩ 0) = slanted.dual (basis slanted 0) ∧
      (plusJacobian slanted ⟨0, 0⟩).transpose * plusJacobian slanted ⟨0, 0⟩ = 1 ∧
      crosswise.component ∈ Submodule.span ℝ (Set.range (plusJacobian slanted ⟨0, 0⟩).col) := by
  have hdot : slanted.dot crosswise = 0 := by
    norm_num [Vec3.dot, slanted, crosswise, Scalar.decimal]
  obtain ⟨hseed, hcolumns, hspan⟩ := plus_linearized norm_slanted
  exact ⟨(hseed 0).1, hcolumns, (hspan crosswise).2 hdot⟩

end Sphere

end MultiView
