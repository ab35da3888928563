import Mathlib
import MultiView.Proofs.Manifold.Embedding
import MultiView.Proofs.Manifold.Sphere
import MultiView.Proofs.Scalar.Guarded

/-!
# The exponential map of the sphere

In exact arithmetic `Sphere.plus` is the exponential map (`Sphere.exp`) at the direction of its point, whatever the
length of that is. A step that is not short is the great circle itself; the expansion that stands in for a short one
is off by the fourth power of its length, to which returning to the sphere adds little
(`Sphere.norm_plus_sub_exp_le`). No length that a step divides by is zero, so in guarded arithmetic it leads to a
known point (`Sphere.plus_known`).
-/

namespace MultiView

namespace Vec3

variable {x : Vec3 ℝ}

/-- What has a length can be divided by it. -/
theorem directed_of_norm (hx : 0 < x.norm) : x.Directed (0 < ·) := ⟨Real.sqrt_pos.1 hx, hx⟩

/-- Returning to the sphere from near a point of it leads near that point. -/
theorem normSq_normalize_sub_mul_le {p : Vec3 ℝ} (hp : p.norm = 1) (hx : 0 < x.norm) :
    (x.normalize - p).normSq * x.norm ≤ (x - p).normSq := by
  have hone : x.norm⁻¹ * x.norm = 1 := inv_mul_cancel₀ hx.ne'
  calc (x.normalize - p).normSq * x.norm = 2 * x.norm - 2 * p.dot x := by
        rw [normSq_sub, norm_eq_one.1 (norm_normalize hx), norm_eq_one.1 hp, dot_comm, normalize_eq_scale, dot_scale]
        linear_combination -2 * p.dot x * hone
    _ ≤ x.norm ^ 2 - 2 * p.dot x + 1 := by linarith [sq_nonneg (x.norm - 1)]
    _ = (x - p).normSq := by rw [normSq_sub, sq_norm, norm_eq_one.1 hp, dot_comm]

end Vec3

namespace Sphere

/-- Where the great circle of a tangent step leads, which is as long as the step. -/
noncomputable def exp (x : Vec3 ℝ) (d : Vec2 ℝ) : Vec3 ℝ :=
  x.scale (Real.cos d.norm) + (lift x d).scale (Real.sinc d.norm)

variable {x : Vec3 ℝ} {d : Vec2 ℝ}

theorem mul_sinc (θ : ℝ) : θ * Real.sinc θ = Real.sin θ := by
  rcases eq_or_ne θ 0 with rfl | h
  · rw [zero_mul, Real.sin_zero]
  · rw [Real.sinc_of_ne_zero h, mul_div_cancel₀ _ h]

theorem norm_exp (hx : x.norm = 1) (d : Vec2 ℝ) : (exp x d).norm = 1 := by
  rw [Vec3.norm_eq_one, exp, Vec3.normSq_scale_add hx (dot_scale_lift hx d _), Vec3.normSq_scale, normSq_lift hx,
    ← mul_pow, mul_sinc, Real.cos_sq_add_sin_sq]

/-! ## The two kinds of steps -/

/-- A step that is not short follows the great circle. -/
theorem plus_eq_exp (hx : x.norm = 1) (hd : smallAngle ≤ d.norm) : plus x d = exp x d := by
  rw [plus_of_le hx hd, exp, Real.sinc_of_ne_zero (smallAngle_pos.trans_le hd).ne']

section Expansions

variable {r : ℝ} (h0 : 0 ≤ r) (h1 : r ≤ 1)

include h0 h1

theorem sq_cos_sub_le : (Real.cos r - (1 - r ^ 2 / 2)) ^ 2 ≤ (r ^ 4 / 2) ^ 2 := by
  have habs : |r| = r := abs_of_nonneg h0
  have hbound := Real.cos_bound (habs.trans_le h1)
  rw [habs] at hbound
  refine sq_le_sq.2 (hbound.trans (le_trans ?_ (le_abs_self _)))
  linarith [pow_nonneg h0 4]

theorem sq_sin_sub_le : (Real.sin r - (r - r ^ 3 / 6)) ^ 2 ≤ (r ^ 4 / 2) ^ 2 := by
  have habs : |r| = r := abs_of_nonneg h0
  have hbound := Real.sin_bound (habs.trans_le h1)
  have hpow : r ^ 5 ≤ r ^ 4 := pow_le_pow_of_le_one h0 h1 (Nat.le_succ 4)
  rw [habs] at hbound
  refine sq_le_sq.2 (hbound.trans (le_trans ?_ (le_abs_self _)))
  linarith [pow_nonneg h0 4]

end Expansions

/-- Before it returns to the sphere, a short step is off by the rest of the two expansions. -/
theorem normSq_expansion_sub_exp_le (hx : x.norm = 1) (hd : d.norm ≤ 1) :
    (x.scale (1 - d.norm ^ 2 / 2) + (lift x d).scale (1 - d.norm ^ 2 / 6) - exp x d).normSq ≤ (d.norm ^ 4) ^ 2 / 2 := by
  set r := d.norm with hr
  have hr0 : 0 ≤ r := d.norm_nonneg
  -- the two points differ along the point and at right angles to it, where `|d|` times the quotient is the sine
  have hparts : x.scale (1 - r ^ 2 / 2) + (lift x d).scale (1 - r ^ 2 / 6) - exp x d =
      x.scale (1 - r ^ 2 / 2 - Real.cos r) + (lift x d).scale (1 - r ^ 2 / 6 - Real.sinc r) := by
    ext <;> simp [exp, Vec3.scale] <;> ring
  calc _ = (1 - r ^ 2 / 2 - Real.cos r) ^ 2 + r ^ 2 * (1 - r ^ 2 / 6 - Real.sinc r) ^ 2 := by
        rw [hparts, Vec3.normSq_scale_add hx (dot_scale_lift hx d _), Vec3.normSq_scale, normSq_lift hx]
    _ = (Real.cos r - (1 - r ^ 2 / 2)) ^ 2 + (Real.sin r - (r - r ^ 3 / 6)) ^ 2 := by rw [← mul_sinc r]; ring
    _ ≤ (r ^ 4 / 2) ^ 2 + (r ^ 4 / 2) ^ 2 := add_le_add (sq_cos_sub_le hr0 hd) (sq_sin_sub_le hr0 hd)
    _ = (r ^ 4) ^ 2 / 2 := by ring

/-- A short step leads to where the great circle does, up to the fourth power of its length. -/
theorem norm_plus_sub_exp_le (hx : x.norm = 1) (hd : d.norm < smallAngle) : (plus x d - exp x d).norm ≤ d.norm ^ 4 := by
  have hone : d.norm < 1 := hd.trans (by rw [smallAngle_eq]; norm_num)
  have hsq : d.norm ^ 2 < 1 := pow_lt_one₀ d.norm_nonneg hone two_ne_zero
  -- the sum that is returned to the sphere has the part `1 - |d|² / 2` along the point, so it is not short
  have hhalf : 1 / 2 ≤ (x.scale (1 - d.norm ^ 2 / 2) + (lift x d).scale (1 - d.norm ^ 2 / 6)).norm := by
    refine Real.le_sqrt_of_sq_le ?_
    rw [Vec3.normSq_scale_add hx (dot_scale_lift hx d _)]
    nlinarith [Vec3.normSq_nonneg ((lift x d).scale (1 - d.norm ^ 2 / 6))]
  have hreturn := Vec3.normSq_normalize_sub_mul_le (norm_exp hx d) (lt_of_lt_of_le one_half_pos hhalf)
  rw [plus_eq hx, cosSinc_of_lt d.norm_nonneg hd]
  refine Real.sqrt_le_left (by positivity) |>.2 ?_
  nlinarith [normSq_expansion_sub_exp_le hx hone.le, Vec3.normSq_nonneg
    ((x.scale (1 - d.norm ^ 2 / 2) + (lift x d).scale (1 - d.norm ^ 2 / 6)).normalize - exp x d)]

/-! ## Divisions -/

/-- The axis that the basis is made of is not along the point. -/
theorem directed_across_flattestAxis (hx : x.norm = 1) : (x.across (flattestAxis x)).Directed (0 < ·) :=
  Vec3.directed_of_norm (Real.sqrt_pos.2 (by linarith [normSq_across_flattestAxis hx]))

/-- A step divides by nothing that is zero. -/
theorem plus_known (hx : x ≠ Vec3.zero) (d : Vec2 ℝ) :
    plus (x.map Guarded.known) (d.map Guarded.known) = (plus x d).map Guarded.known := by
  have hpos := Vec3.norm_pos hx
  have hu := Vec3.norm_normalize hpos
  refine Guarded.embeds_known.plus (Vec3.directed_of_norm hpos) rfl (directed_across_flattestAxis hu) rfl rfl ?_ ?_ rfl
    (Vec3.directed_of_norm (normSq_lift hu d ▸ norm_cosSinc_pos hu d))
  · norm_num [Scalar.ofNat_eq]
  · intro hlong
    have hsq : 0 < (lift x.normalize d).normSq :=
      lt_of_lt_of_le (mul_pos smallAngle_pos smallAngle_pos) (not_lt.1 hlong)
    exact ⟨hsq, Real.sqrt_pos.2 hsq⟩

/-! ## Steps from any point -/

/-- A step from a point is the step from its direction. -/
theorem plus_congr {α : Type} [Scalar α] {x y : Vec3 α} (h : y.normalize = x.normalize) (d : Vec2 α) :
    plus y d = plus x d := by
  rw [plus, plus, h]

theorem plus_normalize (hx : x ≠ Vec3.zero) (d : Vec2 ℝ) : plus x.normalize d = plus x d :=
  plus_congr (Vec3.normalize_of_norm (Vec3.norm_normalize (Vec3.norm_pos hx))) d

/-- `plus` is the exponential map: it is defined, stays on the sphere, depends on the direction of its point only, and
follows the great circle of the step, exactly if that is not short. -/
theorem plus_exponential (hx : x ≠ Vec3.zero) (d : Vec2 ℝ) :
    plus (x.map Guarded.known) (d.map Guarded.known) = (plus x d).map Guarded.known ∧
      (plus x d).norm = 1 ∧
      (∀ y : Vec3 ℝ, y.normalize = x.normalize → plus y d = plus x d) ∧
      (1 / 10 ^ 8 ≤ d.norm → plus x d = exp x.normalize d) ∧
      (d.norm < 1 / 10 ^ 8 → (plus x d - exp x.normalize d).norm ≤ 1 / 10 ^ 24) ∧
      (1 / 10 ^ 8 ≤ d.norm → d.norm ≤ Real.pi → x.normalize.angle (plus x d) = d.norm) := by
  have hu := Vec3.norm_normalize (Vec3.norm_pos hx)
  refine ⟨plus_known hx d, ?_, fun y hy => plus_congr hy d, ?_, ?_, ?_⟩ <;> rw [← plus_normalize hx]
  · exact norm_plus hu d
  · exact fun hd => plus_eq_exp hu (smallAngle_eq.trans_le hd)
  · intro hd
    calc _ ≤ d.norm ^ 4 := norm_plus_sub_exp_le hu (hd.trans_eq smallAngle_eq.symm)
      _ ≤ (1 / 10 ^ 8) ^ 4 := pow_le_pow_left₀ d.norm_nonneg hd.le 4
      _ ≤ 1 / 10 ^ 24 := by norm_num
  · exact fun hd hpi => angle_plus_of_le hu (smallAngle_eq.trans_le hd) hpi

/-- A long step and a short one from a point that is not of unit length. -/
theorem plus_exponential_slanted :
    plus (slanted.scale 5) ⟨1, 2⟩ = exp (slanted.scale 5).normalize ⟨1, 2⟩ ∧
      plus slanted ⟨1, 2⟩ = plus (slanted.scale 5) ⟨1, 2⟩ ∧
      (slanted.scale 5).normalize.angle (plus (slanted.scale 5) ⟨1, 2⟩) = (⟨1, 2⟩ : Vec2 ℝ).norm ∧
      (plus (slanted.scale 5) ⟨1 / 10 ^ 9, 0⟩ - exp (slanted.scale 5).normalize ⟨1 / 10 ^ 9, 0⟩).norm ≤
        1 / 10 ^ 24 := by
  have hnorm : (slanted.scale 5).norm = 5 := by
    rw [Vec3.norm_scale, norm_slanted]
    norm_num
  have hzero : slanted.scale 5 ≠ Vec3.zero := fun h => by
    have hx : slanted.x * 5 = 0 := congrArg Vec3.x h
    norm_num [slanted, Scalar.decimal] at hx
  have hsame : slanted.normalize = (slanted.scale 5).normalize := by
    rw [Vec3.normalize_of_norm norm_slanted, Vec3.normalize_eq_scale, hnorm, Vec3.scale_scale,
      mul_inv_cancel₀ (by norm_num), Vec3.scale_one]
  have hlong : 1 / 10 ^ 8 ≤ (⟨1, 2⟩ : Vec2 ℝ).norm := by
    refine Real.le_sqrt_of_sq_le ?_
    norm_num
  have hpi : (⟨1, 2⟩ : Vec2 ℝ).norm ≤ Real.pi := by
    refine (Real.sqrt_le_left Real.pi_pos.le).2 ?_
    nlinarith [Real.pi_gt_three]
  have hshort : (⟨1 / 10 ^ 9, 0⟩ : Vec2 ℝ).norm < 1 / 10 ^ 8 := by
    refine (Real.sqrt_lt' (by positivity)).2 ?_
    norm_num
  obtain ⟨-, -, hdirection, hexp, -, hangle⟩ := plus_exponential hzero ⟨1, 2⟩
  exact ⟨hexp hlong, hdirection _ hsame, hangle hlong hpi, (plus_exponential hzero ⟨1 / 10 ^ 9, 0⟩).2.2.2.2.1 hshort⟩

end Sphere

end MultiView
