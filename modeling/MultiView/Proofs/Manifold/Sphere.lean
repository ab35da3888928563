import Mathlib
import MultiView.Proofs.Manifold.TangentBasis

/-!
# Steps on the sphere

In exact arithmetic `Sphere.plus` goes along a great circle where the step is not short (`Sphere.plus_of_le`), and
`Sphere.minus` has three cases: points that are neither nearly equal nor nearly opposite (`Sphere.minus_far`), nearly
equal ones (`Sphere.minus_near`) and nearly opposite ones (`Sphere.minus_opposite`). A sine is below its angle, so a
step that `minus` gives for the first kind is never short for `plus`. Hence going to where `minus` points leads to the
point itself, up to twice the small angle (`Sphere.plus_minus`), and `minus` recovers steps up to that
(`Sphere.minus_plus`).
-/

namespace MultiView.Sphere

theorem smallAngle_eq : (smallAngle : ℝ) = 1 / 10 ^ 8 := by
  norm_num [smallAngle, Scalar.decimal]

theorem smallAngle_pos : (0 : ℝ) < smallAngle := by
  rw [smallAngle_eq]
  positivity

/-- An angle from its sine and its cosine. -/
theorem atan2_sin_cos {θ : ℝ} (h0 : 0 ≤ θ) (hpi : θ ≤ Real.pi) :
    Scalar.atan2 (Real.sin θ) (Real.cos θ) = θ := by
  have harg : Complex.arg (Complex.cos θ + Complex.sin θ * Complex.I) = θ :=
    Complex.arg_cos_add_sin_mul_I ⟨by linarith [Real.pi_pos], hpi⟩
  rw [← Complex.ofReal_cos, ← Complex.ofReal_sin, ← Complex.mk_eq_add_mul_I] at harg
  exact harg

/-! ## Cosines and sines -/

section CosSinc

variable {θ : ℝ}

/-- From the small angle on, `cosSinc` is the cosine and the sine by the angle. -/
theorem cosSinc_of_le (h : smallAngle ≤ θ) : cosSinc (θ ^ 2) = (Real.cos θ, Real.sin θ / θ) := by
  have hlarge : ¬θ ^ 2 < smallAngle * smallAngle := by
    rw [not_lt, sq]
    exact mul_self_le_mul_self smallAngle_pos.le h
  have hsqrt : Scalar.sqrt (θ ^ 2) = θ := Real.sqrt_sq (smallAngle_pos.le.trans h)
  rw [cosSinc, if_neg hlarge, hsqrt]
  rfl

/-- Below the small angle it is their second order expansion. -/
theorem cosSinc_of_lt (h0 : 0 ≤ θ) (h : θ < smallAngle) : cosSinc (θ ^ 2) = (1 - θ ^ 2 / 2, 1 - θ ^ 2 / 6) := by
  have hsmall : θ ^ 2 < smallAngle * smallAngle := by
    rw [sq]
    exact mul_self_lt_mul_self h0 h
  rw [cosSinc, if_pos hsmall]
  refine Prod.ext ?_ ?_
  · rw [Scalar.half_eq]
    ring
  · rw [Scalar.ofNat_eq]
    ring

end CosSinc

variable {x y : Vec3 ℝ} {d : Vec2 ℝ}

/-! ## Plus -/

/-- A step goes on along its tangent vector and returns to the sphere. -/
theorem plus_eq (hx : x.norm = 1) (d : Vec2 ℝ) :
    plus x d = (x.scale (cosSinc (d.norm ^ 2)).1 + (lift x d).scale (cosSinc (d.norm ^ 2)).2).normalize := by
  rw [plus, Vec3.normalize_of_norm hx, ← normSq_lift hx]
  rfl

/-- A great circle stays on the sphere. -/
theorem normSq_circle (hx : x.norm = 1) (hd : d.norm ≠ 0) :
    (x.scale (Real.cos d.norm) + (lift x d).scale (Real.sin d.norm / d.norm)).normSq = 1 := by
  rw [Vec3.normSq_scale_add hx (dot_scale_lift hx d _), Vec3.normSq_scale, normSq_lift hx, div_pow,
    mul_div_cancel₀ _ (pow_ne_zero 2 hd), Real.cos_sq_add_sin_sq]

/-- A step that is not short leads along a great circle. -/
theorem plus_of_le (hx : x.norm = 1) (hd : smallAngle ≤ d.norm) :
    plus x d = x.scale (Real.cos d.norm) + (lift x d).scale (Real.sin d.norm / d.norm) := by
  have hpos : 0 < d.norm := smallAngle_pos.trans_le hd
  rw [plus_eq hx, cosSinc_of_le hd]
  exact Vec3.normalize_of_norm (Vec3.norm_eq_one.2 (normSq_circle hx hpos.ne'))

/-- The point that a step leads to, before it returns to the sphere, is not the origin. -/
theorem norm_cosSinc_pos (hx : x.norm = 1) (d : Vec2 ℝ) :
    0 < (x.scale (cosSinc (d.norm ^ 2)).1 + (lift x d).scale (cosSinc (d.norm ^ 2)).2).norm := by
  rcases lt_or_ge d.norm smallAngle with hd | hd
  · have hsq : d.norm ^ 2 < 1 :=
      pow_lt_one₀ d.norm_nonneg (hd.trans (by rw [smallAngle_eq]; norm_num)) two_ne_zero
    rw [cosSinc_of_lt d.norm_nonneg hd]
    exact Vec3.norm_scale_add_pos hx (dot_scale_lift hx d _) (by linarith)
  · have hpos : 0 < d.norm := smallAngle_pos.trans_le hd
    rw [cosSinc_of_le hd, Vec3.norm_eq_one.2 (normSq_circle hx hpos.ne')]
    exact one_pos

theorem norm_plus (hx : x.norm = 1) (d : Vec2 ℝ) : (plus x d).norm = 1 := by
  rw [plus_eq hx]
  exact Vec3.norm_normalize (norm_cosSinc_pos hx d)

theorem plus_zero (hx : x.norm = 1) : plus x ⟨0, 0⟩ = x := by
  have hlift : lift x ⟨0, 0⟩ = Vec3.zero := by
    rw [lift, Vec3.scale_zero, Vec3.scale_zero, Vec3.add_zero]
  have hnorm : (⟨0, 0⟩ : Vec2 ℝ).norm = 0 := by simp [Vec2.norm]
  rw [plus_eq hx, hlift, hnorm, cosSinc_of_lt le_rfl smallAngle_pos]
  have hstay : x.scale (1 - 0 ^ 2 / 2) + Vec3.zero.scale (1 - 0 ^ 2 / 6) = x := by
    ext <;> simp [Vec3.scale, Vec3.zero]
  rw [hstay, Vec3.normalize_of_norm hx]

/-! ## Minus -/

theorem minus_eq (hx : x.norm = 1) (hy : y.norm = 1) : minus y x =
    coordinates x (if (x.cross y).norm < smallAngle then
        if 0 < x.dot y then Vec3.zero else (tangentBasis x).1.scale Real.pi
      else (x.across y).scale (x.angle y / Real.sin (x.angle y))) := by
  have hangle : Scalar.atan2 (x.cross y).norm (x.dot y) = x.angle y := by
    rw [Vec3.norm_cross hx hy, ← Vec3.cos_angle hx hy]
    exact atan2_sin_cos (Vec3.angle_nonneg x y) (Vec3.angle_le_pi x y)
  rw [minus, Vec3.normalize_of_norm hx, Vec3.normalize_of_norm hy, ← Vec3.norm_cross hx hy, ← hangle]
  rfl

/-- The step to a point that is nearly the same. -/
theorem minus_near (hx : x.norm = 1) (hy : y.norm = 1) (hs : (x.cross y).norm < smallAngle) (hc : 0 < x.dot y) :
    minus y x = ⟨0, 0⟩ := by
  rw [minus_eq hx hy, if_pos hs, if_pos hc]
  ext <;> simp [coordinates, Vec3.dot, Vec3.zero]

/-- The step to a point that is nearly opposite. -/
theorem minus_opposite (hx : x.norm = 1) (hy : y.norm = 1) (hs : (x.cross y).norm < smallAngle)
    (hc : x.dot y ≤ 0) : minus y x = ⟨Real.pi, 0⟩ := by
  have hframe := frame_tangentBasis hx
  rw [minus_eq hx hy, if_pos hs, if_neg (not_lt.2 hc), coordinates_scale, coordinates, Vec3.dot_self,
    Vec3.norm_eq_one.1 hframe.norm_b1, Vec3.dot_comm, hframe.b1_dot_b2, one_mul, zero_mul]

/-- The step to any other point is along the part of the point at right angles, as long as the angle. -/
theorem minus_far (hx : x.norm = 1) (hy : y.norm = 1) (hs : smallAngle ≤ (x.cross y).norm) :
    minus y x = coordinates x ((x.across y).scale (x.angle y / Real.sin (x.angle y))) := by
  rw [minus_eq hx hy, if_neg (not_lt.2 hs)]

theorem dot_scale_across (hx : x.norm = 1) (y : Vec3 ℝ) (s : ℝ) : x.dot ((x.across y).scale s) = 0 := by
  rw [Vec3.dot_scale, Vec3.dot_across hx, zero_mul]

theorem sin_angle_pos (hx : x.norm = 1) (hy : y.norm = 1) (hs : smallAngle ≤ (x.cross y).norm) :
    0 < Real.sin (x.angle y) := by
  rw [← Vec3.norm_cross hx hy]
  exact smallAngle_pos.trans_le hs

/-! ## Lengths of steps between points -/

theorem norm_minus_far (hx : x.norm = 1) (hy : y.norm = 1) (hs : smallAngle ≤ (x.cross y).norm) :
    (minus y x).norm = x.angle y := by
  have hsin := sin_angle_pos hx hy hs
  rw [minus_far hx hy hs, norm_coordinates hx (dot_scale_across hx y _), Vec3.norm_scale, Vec3.norm_across hx,
    Vec3.norm_cross hx hy, abs_of_nonneg (div_nonneg (Vec3.angle_nonneg x y) hsin.le), mul_div_cancel₀ _ hsin.ne']

theorem norm_minus_near (hx : x.norm = 1) (hy : y.norm = 1) (hs : (x.cross y).norm < smallAngle)
    (hc : 0 < x.dot y) : (minus y x).norm = 0 := by
  rw [minus_near hx hy hs hc]
  simp [Vec2.norm]

theorem norm_minus_opposite (hx : x.norm = 1) (hy : y.norm = 1) (hs : (x.cross y).norm < smallAngle)
    (hc : x.dot y ≤ 0) : (minus y x).norm = Real.pi := by
  rw [minus_opposite hx hy hs hc]
  simp [Vec2.norm, Real.sqrt_sq Real.pi_pos.le]

/-- A step between points is as long as the step back. -/
theorem norm_minus_comm (hx : x.norm = 1) (hy : y.norm = 1) : (minus y x).norm = (minus x y).norm := by
  have hcross := Vec3.norm_cross_comm x y
  have hdot := Vec3.dot_comm x y
  rcases lt_or_ge (x.cross y).norm smallAngle with hs | hs
  · rcases lt_or_ge 0 (x.dot y) with hc | hc
    · rw [norm_minus_near hx hy hs hc, norm_minus_near hy hx (hcross ▸ hs) (hdot ▸ hc)]
    · rw [norm_minus_opposite hx hy hs hc, norm_minus_opposite hy hx (hcross ▸ hs) (hdot ▸ hc)]
  · rw [norm_minus_far hx hy hs, norm_minus_far hy hx (hcross ▸ hs), Vec3.angle_comm]

/-- No step between points is longer than half a turn. -/
theorem norm_minus_le_pi (hx : x.norm = 1) (hy : y.norm = 1) : (minus y x).norm ≤ Real.pi := by
  rcases lt_or_ge (x.cross y).norm smallAngle with hs | hs
  · rcases lt_or_ge 0 (x.dot y) with hc | hc
    · rw [norm_minus_near hx hy hs hc]
      exact Real.pi_pos.le
    · exact (norm_minus_opposite hx hy hs hc).le
  · rw [norm_minus_far hx hy hs]
    exact Vec3.angle_le_pi x y

/-! ## Going to where minus points -/

/-- The step between points that are neither nearly equal nor nearly opposite leads to the other. -/
theorem plus_minus_far (hx : x.norm = 1) (hy : y.norm = 1) (hs : smallAngle ≤ (x.cross y).norm) :
    plus x (minus y x) = y := by
  have hsin := sin_angle_pos hx hy hs
  have hnorm := norm_minus_far hx hy hs
  -- the sine of the angle is not small, so neither is the angle
  have hsmall : smallAngle ≤ (minus y x).norm := by
    rw [hnorm]
    exact (hs.trans_eq (Vec3.norm_cross hx hy)).trans (Real.sin_le (Vec3.angle_nonneg x y))
  have hangle : x.angle y ≠ 0 := fun h => by simp [h] at hsin
  have hone : x.angle y / Real.sin (x.angle y) * (Real.sin (x.angle y) / x.angle y) = 1 := by
    field_simp
  rw [plus_of_le hx hsmall, hnorm, minus_far hx hy hs, lift_coordinates hx (dot_scale_across hx y _),
    Vec3.scale_scale, hone, Vec3.scale_one, Vec3.cos_angle hx hy, Vec3.scale_dot_add_across]

theorem plus_minus_near (hx : x.norm = 1) (hy : y.norm = 1) (hs : (x.cross y).norm < smallAngle)
    (hc : 0 < x.dot y) : plus x (minus y x) = x := by
  rw [minus_near hx hy hs hc, plus_zero hx]

theorem plus_minus_opposite (hx : x.norm = 1) (hy : y.norm = 1) (hs : (x.cross y).norm < smallAngle)
    (hc : x.dot y ≤ 0) : plus x (minus y x) = -x := by
  have hnorm := norm_minus_opposite hx hy hs hc
  have hsmall : smallAngle ≤ (minus y x).norm := by
    rw [hnorm, smallAngle_eq]
    linarith [Real.pi_gt_three]
  rw [plus_of_le hx hsmall, hnorm, Real.cos_pi, Real.sin_pi, zero_div, Vec3.scale_zero, Vec3.add_zero,
    Vec3.scale_neg_one]

/-- The squared distance of unit vectors that are nearly parallel, from their cosine and sine. -/
theorem two_mul_one_sub_le {c s : ℝ} (hc : 0 ≤ c) (hcircle : c ^ 2 + s ^ 2 = 1) (hs0 : 0 ≤ s) (hs : s < smallAngle) :
    2 * (1 - c) ≤ (2 / 10 ^ 8) ^ 2 := by
  rw [smallAngle_eq] at hs
  have hsq : s ^ 2 ≤ (1 / 10 ^ 8) ^ 2 := by gcongr
  nlinarith

theorem norm_plus_minus_sub (hx : x.norm = 1) (hy : y.norm = 1) : (plus x (minus y x) - y).norm ≤ 2 / 10 ^ 8 := by
  have hcircle : x.dot y ^ 2 + (x.cross y).norm ^ 2 = 1 := by
    rw [Vec3.sq_norm, Vec3.sq_dot_add_normSq_cross hx hy]
  have hs0 := (x.cross y).norm_nonneg
  refine (Real.sqrt_le_left (by positivity)).2 ?_
  rcases lt_or_ge (x.cross y).norm smallAngle with hs | hs
  · rcases lt_or_ge 0 (x.dot y) with hc | hc
    · rw [plus_minus_near hx hy hs hc, Vec3.normSq_sub, Vec3.norm_eq_one.1 hx, Vec3.norm_eq_one.1 hy]
      linarith [two_mul_one_sub_le hc.le hcircle hs0 hs]
    · rw [plus_minus_opposite hx hy hs hc, ← Vec3.scale_neg_one, Vec3.normSq_sub, Vec3.normSq_scale, Vec3.dot_comm,
        Vec3.dot_scale, Vec3.dot_comm y x, Vec3.norm_eq_one.1 hx, Vec3.norm_eq_one.1 hy]
      rw [← neg_sq] at hcircle
      linarith [two_mul_one_sub_le (neg_nonneg.2 hc) hcircle hs0 hs]
  · rw [plus_minus_far hx hy hs, Vec3.normSq_sub, Vec3.dot_self]
    have hbound : (0 : ℝ) ≤ (2 / 10 ^ 8) ^ 2 := by positivity
    linarith

/-- Going to where `minus` points leads to the point, exactly for points that are equal, opposite or neither nearly so;
the step is as long as the angle, and as the step back. -/
theorem plus_minus (hx : x.norm = 1) (hy : y.norm = 1) :
    (plus x (minus y x) - y).norm ≤ 2 / 10 ^ 8 ∧
      (y = x ∨ y = -x ∨ 1 / 10 ^ 8 ≤ (x.cross y).norm → plus x (minus y x) = y) ∧
      (1 / 10 ^ 8 ≤ (x.cross y).norm → (minus y x).norm = x.angle y) ∧
      0 ≤ (minus y x).norm ∧ (minus y x).norm ≤ Real.pi ∧ (minus y x).norm = (minus x y).norm := by
  refine ⟨norm_plus_minus_sub hx hy, ?_, fun hs => norm_minus_far hx hy (smallAngle_eq.trans_le hs),
    Vec2.norm_nonneg _, norm_minus_le_pi hx hy, norm_minus_comm hx hy⟩
  rintro (rfl | rfl | hs)
  · have hdot : y.dot y = 1 := Vec3.norm_eq_one.1 hx
    refine plus_minus_near hx hx ?_ (by rw [hdot]; exact one_pos)
    rw [Vec3.norm_cross_of_dot hx hx (by rw [hdot, one_pow])]
    exact smallAngle_pos
  · have hdot : x.dot (-x) = -1 := by
      rw [← Vec3.scale_neg_one, Vec3.dot_scale, Vec3.dot_self, Vec3.norm_eq_one.1 hx, one_mul]
    refine plus_minus_opposite hx hy ?_ (by rw [hdot]; norm_num)
    rw [Vec3.norm_cross_of_dot hx hy (by rw [hdot]; norm_num)]
    exact smallAngle_pos
  · exact plus_minus_far hx hy (smallAngle_eq.trans_le hs)

/-- A unit vector along no axis. -/
noncomputable def slanted : Vec3 ℝ := ⟨Scalar.decimal 36 2, Scalar.decimal 48 2, Scalar.decimal 8 1⟩

/-- A unit vector at right angles to it. -/
noncomputable def crosswise : Vec3 ℝ := ⟨-Scalar.decimal 48 2, -Scalar.decimal 64 2, Scalar.decimal 6 1⟩

theorem norm_slanted : slanted.norm = 1 := by
  rw [Vec3.norm_eq_one]
  norm_num [Vec3.normSq, slanted, Scalar.decimal]

theorem norm_crosswise : crosswise.norm = 1 := by
  rw [Vec3.norm_eq_one]
  norm_num [Vec3.normSq, crosswise, Scalar.decimal]

/-- A quarter of a turn, and the opposite point. -/
theorem plus_minus_slanted :
    plus slanted (minus crosswise slanted) = crosswise ∧ (minus crosswise slanted).norm = Real.pi / 2 ∧
      plus slanted (minus (-slanted) slanted) = -slanted := by
  have hdot : slanted.dot crosswise = 0 := by
    norm_num [Vec3.dot, slanted, crosswise, Scalar.decimal]
  have hcross : (slanted.cross crosswise).norm = 1 := by
    rw [Vec3.norm_eq_one, Vec3.normSq_cross, Vec3.norm_eq_one.1 norm_slanted, Vec3.norm_eq_one.1 norm_crosswise, hdot]
    norm_num
  have hangle : slanted.angle crosswise = Real.pi / 2 := by
    rw [Vec3.angle, hdot, zero_div, Real.arccos_zero]
  have hopposite : (-slanted).norm = 1 := by
    rw [← Vec3.scale_neg_one, Vec3.norm_scale, norm_slanted]
    norm_num
  have hfar : 1 / 10 ^ 8 ≤ (slanted.cross crosswise).norm := by
    rw [hcross]
    norm_num
  obtain ⟨-, hback, hlength, -⟩ := plus_minus norm_slanted norm_crosswise
  exact ⟨hback (.inr (.inr hfar)), (hlength hfar).trans hangle,
    (plus_minus norm_slanted hopposite).2.1 (.inr (.inl rfl))⟩

/-! ## Recovering steps -/

theorem dot_plus_of_le (hx : x.norm = 1) (hd : smallAngle ≤ d.norm) : x.dot (plus x d) = Real.cos d.norm := by
  rw [plus_of_le hx hd, Vec3.dot_scale_add hx (dot_scale_lift hx d _)]

/-- A step of at most half a turn leads as far as it is long. -/
theorem angle_plus_of_le (hx : x.norm = 1) (hd : smallAngle ≤ d.norm) (hpi : d.norm ≤ Real.pi) :
    x.angle (plus x d) = d.norm := by
  rw [Vec3.angle, dot_plus_of_le hx hd, hx, norm_plus hx d, mul_one, div_one,
    Real.arccos_cos d.norm_nonneg hpi]

theorem norm_cross_plus_of_le (hx : x.norm = 1) (hd : smallAngle ≤ d.norm) (hpi : d.norm ≤ Real.pi) :
    (x.cross (plus x d)).norm = Real.sin d.norm := by
  rw [Vec3.norm_cross hx (norm_plus hx d), angle_plus_of_le hx hd hpi]

/-- A step whose sine is not small is recovered. -/
theorem minus_plus_of_le (hx : x.norm = 1) (hd : smallAngle ≤ d.norm) (hpi : d.norm ≤ Real.pi)
    (hsin : smallAngle ≤ Real.sin d.norm) : minus (plus x d) x = d := by
  have hpos : 0 < d.norm := smallAngle_pos.trans_le hd
  have hsinpos : 0 < Real.sin d.norm := smallAngle_pos.trans_le hsin
  have hpart : x.across (plus x d) = (lift x d).scale (Real.sin d.norm / d.norm) := by
    rw [plus_of_le hx hd, Vec3.across_scale_add hx (dot_scale_lift hx d _)]
  have hone : Real.sin d.norm / d.norm * (d.norm / Real.sin d.norm) = 1 := by field_simp
  rw [minus_far hx (norm_plus hx d) (hsin.trans_eq (norm_cross_plus_of_le hx hd hpi).symm),
    angle_plus_of_le hx hd hpi, hpart, Vec3.scale_scale, hone, Vec3.scale_one,
    coordinates_lift hx]

/-- A short step leads to a nearby point. -/
theorem near_plus_of_lt (hx : x.norm = 1) (hd : d.norm < smallAngle) :
    0 < x.dot (plus x d) ∧ (x.cross (plus x d)).norm < smallAngle := by
  rw [plus_eq hx, cosSinc_of_lt d.norm_nonneg hd]
  set c := 1 - d.norm ^ 2 / 2 with hc
  set s := 1 - d.norm ^ 2 / 6 with hs
  have hsmall : d.norm ^ 2 < (1 / 10 ^ 8) ^ 2 := by
    rw [smallAngle_eq] at hd
    exact pow_lt_pow_left₀ hd d.norm_nonneg two_ne_zero
  have hcpos : 0 < c := by linarith
  have hspos : 0 < s := by linarith
  have hdot := dot_scale_lift hx d s
  have hpos := Vec3.norm_scale_add_pos hx hdot hcpos
  -- the sine is `|d| s` by the length, and the length is at least `s`
  have hle : s ≤ (x.scale c + (lift x d).scale s).norm := by
    refine Real.le_sqrt_of_sq_le ?_
    rw [Vec3.normSq_scale_add hx hdot, Vec3.normSq_scale, normSq_lift hx, hs, hc]
    nlinarith [sq_nonneg d.norm, pow_nonneg (sq_nonneg d.norm) 3]
  refine ⟨?_, ?_⟩
  · rw [Vec3.dot_normalize_scale_add hx hdot]
    exact div_pos hcpos hpos
  · rw [Vec3.norm_cross_normalize_scale_add hx hdot, Vec3.norm_scale, norm_lift hx, abs_of_pos hspos]
    refine lt_of_le_of_lt ((div_le_iff₀ hpos).2 ?_) hd
    exact mul_le_mul_of_nonneg_left hle d.norm_nonneg

/-- A sine is more than half its angle, from either end. -/
theorem smallAngle_le_sin {θ : ℝ} (h : 2 / 10 ^ 8 ≤ θ) (hpi : θ ≤ Real.pi - 2 / 10 ^ 8) :
    smallAngle ≤ Real.sin θ := by
  have hhalf : ∀ t : ℝ, 2 / 10 ^ 8 ≤ t → t ≤ Real.pi / 2 → smallAngle ≤ Real.sin t := fun t ht htpi => by
    have hslope : 1 / 2 ≤ 2 / Real.pi := by
      rw [div_le_div_iff₀ two_pos Real.pi_pos]
      linarith [Real.pi_le_four]
    calc (smallAngle : ℝ) = 1 / 2 * (2 / 10 ^ 8) := by rw [smallAngle_eq]; norm_num
      _ ≤ 2 / Real.pi * t := by gcongr
      _ ≤ Real.sin t := Real.mul_le_sin (le_trans (by positivity) ht) htpi
  rcases le_total θ (Real.pi / 2) with hθ | hθ
  · exact hhalf θ h hθ
  · rw [← Real.sin_pi_sub]
    exact hhalf _ (by linarith) (by linarith)

/-- A step that is nearly short is recovered or taken for none. -/
theorem minus_plus_of_lt (hx : x.norm = 1) (hd : d.norm < 2 / 10 ^ 8) :
    minus (plus x d) x = d ∨ minus (plus x d) x = ⟨0, 0⟩ := by
  have hpi : d.norm ≤ Real.pi := by linarith [Real.pi_gt_three]
  rcases lt_or_ge d.norm smallAngle with hshort | hlong
  · obtain ⟨hdot, hcross⟩ := near_plus_of_lt hx hshort
    exact .inr (minus_near hx (norm_plus hx d) hcross hdot)
  · rcases lt_or_ge (Real.sin d.norm) smallAngle with hsin | hsin
    · have hcos : 0 < Real.cos d.norm :=
        Real.cos_pos_of_mem_Ioo ⟨by linarith [d.norm_nonneg, Real.pi_pos], by linarith [Real.pi_gt_three]⟩
      refine .inr (minus_near hx (norm_plus hx d) ?_ ?_)
      · rwa [norm_cross_plus_of_le hx hlong hpi]
      · rwa [dot_plus_of_le hx hlong]
    · exact .inl (minus_plus_of_le hx hlong hpi hsin)

/-- `minus` recovers a step that is not nearly half a turn, exactly if it is not short. -/
theorem minus_plus (hx : x.norm = 1) (hd : d.norm ≤ Real.pi - 2 / 10 ^ 8) :
    (minus (plus x d) x - d).norm ≤ 2 / 10 ^ 8 ∧ (2 / 10 ^ 8 ≤ d.norm → minus (plus x d) x = d) := by
  have hself : (d - d).norm ≤ 2 / 10 ^ 8 := by
    have hzero : (d - d).norm = 0 := by simp [Vec2.norm]
    rw [hzero]
    positivity
  rcases le_or_gt (2 / 10 ^ 8) d.norm with hlong | hshort
  · have hsmall : smallAngle ≤ (2 / 10 ^ 8 : ℝ) := by
      rw [smallAngle_eq]
      norm_num
    have hback := minus_plus_of_le hx (hsmall.trans hlong) (by linarith) (smallAngle_le_sin hlong hd)
    exact ⟨hback.symm ▸ hself, fun _ => hback⟩
  · refine ⟨?_, fun h => absurd h (not_le.2 hshort)⟩
    rcases minus_plus_of_lt hx hshort with h | h
    · rwa [h]
    · have hzero : (minus (plus x d) x - d).norm = d.norm := by
        rw [h]
        simp [Vec2.norm]
      rw [hzero]
      exact hshort.le

/-- A step of more than a quarter of a turn, and one that is shorter than the small angle. -/
theorem minus_plus_slanted :
    minus (plus slanted ⟨1, 2⟩) slanted = ⟨1, 2⟩ ∧
      (minus (plus slanted ⟨1 / 10 ^ 9, 0⟩) slanted - ⟨1 / 10 ^ 9, 0⟩).norm ≤ 2 / 10 ^ 8 := by
  have hlong : (⟨1, 2⟩ : Vec2 ℝ).norm ≤ Real.pi - 2 / 10 ^ 8 := by
    refine (Real.sqrt_le_left (by linarith [Real.pi_gt_three])).2 ?_
    nlinarith [Real.pi_gt_three]
  have hstep : 2 / 10 ^ 8 ≤ (⟨1, 2⟩ : Vec2 ℝ).norm := by
    refine Real.le_sqrt_of_sq_le ?_
    norm_num
  have hshort : (⟨1 / 10 ^ 9, 0⟩ : Vec2 ℝ).norm ≤ Real.pi - 2 / 10 ^ 8 := by
    refine (Real.sqrt_le_left (by linarith [Real.pi_gt_three])).2 ?_
    nlinarith [Real.pi_gt_three]
  exact ⟨(minus_plus norm_slanted hlong).2 hstep, (minus_plus norm_slanted hshort).1⟩

end MultiView.Sphere
