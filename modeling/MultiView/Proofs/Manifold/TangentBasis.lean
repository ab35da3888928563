import Mathlib
import MultiView.Manifold.Sphere
import MultiView.Proofs.Camera.Undistort
import MultiView.Proofs.Geometry.Vector

/-!
# Tangent planes of the sphere

The basis of a tangent plane is made from the axis along which the point has its smallest component
(`Sphere.flattestAxis_cases`), and an axis is far from parallel to the point if it is that one
(`Sphere.normSq_across_flattestAxis`). So the basis and the point are a frame (`Sphere.frame_tangentBasis`,
`Sphere.tangentBasis_rightHanded`), and steps are the coordinates of tangent vectors: `Sphere.lift` and
`Sphere.coordinates` undo each other and keep lengths.
-/

namespace MultiView

/-- The length of a step. -/
noncomputable def Vec2.norm (d : Vec2 ℝ) : ℝ := Real.sqrt (d.x ^ 2 + d.y ^ 2)

theorem Vec2.sq_norm (d : Vec2 ℝ) : d.norm ^ 2 = d.x ^ 2 + d.y ^ 2 :=
  Real.sq_sqrt (add_nonneg (sq_nonneg d.x) (sq_nonneg d.y))

theorem Vec2.norm_nonneg (d : Vec2 ℝ) : 0 ≤ d.norm := Real.sqrt_nonneg _

namespace Sphere

/-! ## The axis -/

/-- The chosen axis is one along which no other component is smaller. -/
theorem flattestAxis_cases (x : Vec3 ℝ) :
    (flattestAxis x = Vec3.xAxis ∧ |x.x| ≤ |x.y| ∧ |x.x| ≤ |x.z|) ∨
      (flattestAxis x = Vec3.yAxis ∧ |x.y| ≤ |x.x| ∧ |x.y| ≤ |x.z|) ∨
      (flattestAxis x = Vec3.zAxis ∧ |x.z| ≤ |x.x| ∧ |x.z| ≤ |x.y|) := by
  simp only [flattestAxis, Scalar.abs_eq]
  split
  · next h => exact .inl ⟨rfl, h⟩
  · next h =>
    have hx : ∀ {m : ℝ}, m ≤ |x.y| → m ≤ |x.z| → m ≤ |x.x| := fun hy hz =>
      le_of_not_gt fun hlt => h ⟨(hlt.trans_le hy).le, (hlt.trans_le hz).le⟩
    split
    · next hyz => exact .inr (.inl ⟨rfl, hx le_rfl hyz, hyz⟩)
    · next hzy =>
      have hzy := (not_le.1 hzy).le
      exact .inr (.inr ⟨rfl, hx hzy le_rfl, hzy⟩)

/-- The chosen axis is a coordinate axis, and the point has no smaller component along any other. -/
theorem abs_dot_flattestAxis_le (x : Vec3 ℝ) : flattestAxis x ∈ [Vec3.xAxis, Vec3.yAxis, Vec3.zAxis] ∧
    ∀ axis ∈ [Vec3.xAxis, Vec3.yAxis, Vec3.zAxis], |x.dot (flattestAxis x)| ≤ |x.dot axis| := by
  rcases flattestAxis_cases x with ⟨h, h1, h2⟩ | ⟨h, h1, h2⟩ | ⟨h, h1, h2⟩ <;> rw [h] <;>
    simp [Vec3.dot, Vec3.xAxis, Vec3.yAxis, Vec3.zAxis, h1, h2]

variable {x : Vec3 ℝ}

theorem normSq_flattestAxis (x : Vec3 ℝ) : (flattestAxis x).normSq = 1 := by
  rcases flattestAxis_cases x with ⟨h, -⟩ | ⟨h, -⟩ | ⟨h, -⟩ <;> rw [h] <;>
    norm_num [Vec3.normSq, Vec3.xAxis, Vec3.yAxis, Vec3.zAxis]

/-- The smallest of three squares is at most a third of their sum. -/
theorem sq_dot_flattestAxis_le (hx : x.norm = 1) : x.dot (flattestAxis x) ^ 2 ≤ 1 / 3 := by
  have hunit : x.x * x.x + x.y * x.y + x.z * x.z = 1 := Vec3.norm_eq_one.1 hx
  rcases flattestAxis_cases x with ⟨h, h1, h2⟩ | ⟨h, h1, h2⟩ | ⟨h, h1, h2⟩ <;> rw [h] <;>
    simp only [Vec3.dot, Vec3.xAxis, Vec3.yAxis, Vec3.zAxis] <;>
    linarith [sq_le_sq.2 h1, sq_le_sq.2 h2]

/-- What is left of the axis at right angles to the point. -/
theorem normSq_across_flattestAxis (hx : x.norm = 1) : 2 / 3 ≤ (x.across (flattestAxis x)).normSq := by
  rw [Vec3.normSq_across hx, normSq_flattestAxis]
  linarith [sq_dot_flattestAxis_le hx]

/-! ## The basis -/

/-- The basis of a tangent plane and the point make a right-handed frame. -/
theorem frame_tangentBasis (hx : x.norm = 1) : Vec3.Frame (tangentBasis x).1 (tangentBasis x).2 x := by
  have hpos : 0 < (x.across (flattestAxis x)).norm := Real.sqrt_pos.2 (by linarith [normSq_across_flattestAxis hx])
  refine .of_dot hx (Vec3.norm_normalize hpos) ?_
  change x.dot (x.across (flattestAxis x)).normalize = 0
  rw [Vec3.normalize_eq_scale, Vec3.dot_scale, Vec3.dot_across hx, zero_mul]

/-- The basis of a tangent plane is made from an axis along which the point has its smallest component. What is left of
this axis at right angles to the point is never short. The basis begins with its direction, and is a right-handed
orthonormal frame together with the point. -/
theorem tangentBasis_rightHanded (hx : x.norm = 1) :
    (flattestAxis x ∈ [Vec3.xAxis, Vec3.yAxis, Vec3.zAxis] ∧
      ∀ axis ∈ [Vec3.xAxis, Vec3.yAxis, Vec3.zAxis], |x.dot (flattestAxis x)| ≤ |x.dot axis|) ∧
    2 / 3 ≤ (flattestAxis x - x.scale (x.dot (flattestAxis x))).normSq ∧
    (tangentBasis x).1 = (flattestAxis x - x.scale (x.dot (flattestAxis x))).normalize ∧
    Vec3.Frame (tangentBasis x).1 (tangentBasis x).2 x :=
  ⟨abs_dot_flattestAxis_le x, normSq_across_flattestAxis hx, rfl, frame_tangentBasis hx⟩

/-- A point with components of the same size along all axes. -/
noncomputable def diagonal : Vec3 ℝ := Vec3.normalize ⟨1, -1, 1⟩

theorem tangentBasis_rightHanded_diagonal :
    diagonal.norm = 1 ∧ Vec3.Frame (tangentBasis diagonal).1 (tangentBasis diagonal).2 diagonal := by
  have hne : (⟨1, -1, 1⟩ : Vec3 ℝ) ≠ Vec3.zero := fun h => one_ne_zero (congrArg Vec3.x h)
  have hnorm : diagonal.norm = 1 := Vec3.norm_normalize (Vec3.norm_pos hne)
  obtain ⟨-, -, -, hframe⟩ := tangentBasis_rightHanded hnorm
  exact ⟨hnorm, hframe⟩

/-- The tangent vector of a step. -/
noncomputable def lift (x : Vec3 ℝ) (d : Vec2 ℝ) : Vec3 ℝ :=
  (tangentBasis x).1.scale d.x + (tangentBasis x).2.scale d.y

/-- The step of a tangent vector. -/
noncomputable def coordinates (x v : Vec3 ℝ) : Vec2 ℝ := ⟨(tangentBasis x).1.dot v, (tangentBasis x).2.dot v⟩

theorem dot_lift (hx : x.norm = 1) (d : Vec2 ℝ) : x.dot (lift x d) = 0 := by
  have h := frame_tangentBasis hx
  rw [lift, Vec3.dot_add, Vec3.dot_scale, Vec3.dot_scale, h.x_dot_b1, h.x_dot_b2, zero_mul, zero_mul, add_zero]

theorem dot_scale_lift (hx : x.norm = 1) (d : Vec2 ℝ) (s : ℝ) : x.dot ((lift x d).scale s) = 0 := by
  rw [Vec3.dot_scale, dot_lift hx, zero_mul]

theorem normSq_lift (hx : x.norm = 1) (d : Vec2 ℝ) : (lift x d).normSq = d.norm ^ 2 := by
  have h := frame_tangentBasis hx
  rw [lift, Vec3.normSq_scale_add_scale, Vec3.norm_eq_one.1 h.norm_b1, Vec3.norm_eq_one.1 h.norm_b2, h.b1_dot_b2,
    Vec2.sq_norm]
  ring

theorem norm_lift (hx : x.norm = 1) (d : Vec2 ℝ) : (lift x d).norm = d.norm :=
  (congrArg Real.sqrt (normSq_lift hx d)).trans (Real.sqrt_sq d.norm_nonneg)

theorem coordinates_lift (hx : x.norm = 1) (d : Vec2 ℝ) : coordinates x (lift x d) = d := by
  have h := frame_tangentBasis hx
  rw [coordinates, lift]
  ext
  · simp only [Vec3.dot_add, Vec3.dot_scale, Vec3.dot_self, Vec3.norm_eq_one.1 h.norm_b1, h.b1_dot_b2]
    ring
  · simp only [Vec3.dot_add, Vec3.dot_scale, Vec3.dot_self, Vec3.norm_eq_one.1 h.norm_b2,
      Vec3.dot_comm _ (tangentBasis x).1, h.b1_dot_b2]
    ring

theorem coordinates_scale (x v : Vec3 ℝ) (s : ℝ) :
    coordinates x (v.scale s) = ⟨(coordinates x v).x * s, (coordinates x v).y * s⟩ := by
  rw [coordinates, Vec3.dot_scale, Vec3.dot_scale, coordinates]

/-- A vector at right angles to the point is the tangent vector of its step. -/
theorem lift_coordinates (hx : x.norm = 1) {v : Vec3 ℝ} (hv : x.dot v = 0) : lift x (coordinates x v) = v := by
  have hresolve := (frame_tangentBasis hx).resolve v
  rwa [hv, Vec3.scale_zero, Vec3.add_zero] at hresolve

theorem norm_coordinates (hx : x.norm = 1) {v : Vec3 ℝ} (hv : x.dot v = 0) : (coordinates x v).norm = v.norm := by
  rw [← norm_lift hx, lift_coordinates hx hv]

end Sphere

end MultiView
