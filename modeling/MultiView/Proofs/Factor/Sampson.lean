import Mathlib
import MultiView.Proofs.Factor.Epipolar
import MultiView.Proofs.Geometry.RotationMatrix

/-!
# Symmetries of the Sampson error

In exact arithmetic the essential matrix of a pose does not depend on the length of its quaternion, and that of the
inverse pose is its transpose (`Factor.essential_inverse`). So the squared Sampson error, where its denominator is not
zero, is a nonnegative number that vanishes where the epipolar form does, that no change of scale changes, and that is
the same for the views exchanged (`Factor.sampsonError_symmetries`).
-/

namespace MultiView

namespace Factor

variable {q : Quat ℝ} {t : Vec3 ℝ} {x1 x2 : Vec2 ℝ}

/-! ## Essential matrices -/

/-- The matrix of the epipolar form. -/
noncomputable def essential (q : Quat ℝ) (t : Vec3 ℝ) : Mat3 ℝ := (Mat3.skew t).mul q.toMat3

/-- The inverse pose, whose motion is the motion back in the second view, has the transpose. -/
theorem essential_inverse (h : q ≠ .zero) (t : Vec3 ℝ) :
    essential q.conj (-(q.conj.toMat3.mulVec t)) = (essential q t).transpose :=
  Mat3.ext_mulVec fun v =>
    calc (essential q.conj (-(q.conj.toMat3.mulVec t))).mulVec v
        = -((q.conj.toMat3.mulVec t).cross (q.conj.toMat3.mulVec v)) := by
          rw [essential, Mat3.mul_mulVec, Mat3.skew_neg_mulVec]
      _ = -(q.conj.toMat3.mulVec (t.cross v)) := by rw [Quat.cross_toMat3_mulVec (Quat.conj_ne_zero h)]
      _ = (essential q t).transpose.mulVec v := by
          rw [essential, Mat3.transpose_mul, Mat3.mul_mulVec, Mat3.transpose_skew_mulVec, Mat3.mulVec_neg,
            Quat.toMat3_conj]

/-! ## Form and denominator -/

theorem epipolarForm_scaled {s : ℝ} (hs : s ≠ 0) (u : ℝ) :
    epipolarForm (q.scale s) (t.scale u) x1 x2 = epipolarForm q t x1 x2 * u := by
  rw [epipolarForm_scale, epipolarForm, Quat.toMat3_scale q hs, epipolarForm]

theorem sampsonDenominator_scaled {s : ℝ} (hs : s ≠ 0) (u : ℝ) :
    sampsonDenominator (q.scale s) (t.scale u) x1 x2 = sampsonDenominator q t x1 x2 * u ^ 2 := by
  rw [sampsonDenominator_scale, sampsonDenominator, Quat.toMat3_scale q hs, sampsonDenominator]

theorem epipolarForm_inverse (h : q ≠ .zero) :
    epipolarForm q.conj (-(q.conj.toMat3.mulVec t)) x2 x1 = epipolarForm q t x1 x2 := by
  change x1.homogeneous.dot ((essential q.conj (-(q.conj.toMat3.mulVec t))).mulVec x2.homogeneous) =
    x2.homogeneous.dot ((essential q t).mulVec x1.homogeneous)
  rw [essential_inverse h, Mat3.dot_transpose_mulVec]

/-- The denominator sums squares of entries of the two epipolar lines, which the views exchanged have exchanged. -/
theorem sampsonDenominator_inverse (h : q ≠ .zero) :
    sampsonDenominator q.conj (-(q.conj.toMat3.mulVec t)) x2 x1 = sampsonDenominator q t x1 x2 := by
  have hessential : (Mat3.skew (-(q.conj.toMat3.mulVec t))).mul q.conj.toMat3 =
      ((Mat3.skew t).mul q.toMat3).transpose := essential_inverse h t
  simp only [sampsonDenominator, hessential, Mat3.transpose_transpose]
  ring

theorem sampsonDenominator_nonneg (q : Quat ℝ) (t : Vec3 ℝ) (x1 x2 : Vec2 ℝ) : 0 ≤ sampsonDenominator q t x1 x2 := by
  have hsum : ∀ a b c d : ℝ, 0 ≤ a * a + b * b + c * c + d * d := fun a b c d => by
    linarith [mul_self_nonneg a, mul_self_nonneg b, mul_self_nonneg c, mul_self_nonneg d]
  exact hsum _ _ _ _

/-! ## The residual -/

/-- A correspondence has the residual `r` at a pose, and the denominator there is not zero. -/
structure HasSampsonError (q : Quat ℝ) (t : Vec3 ℝ) (x1 x2 : Vec2 ℝ) (r : ℝ) : Prop where
  denominator : sampsonDenominator q t x1 x2 ≠ 0
  evaluate : (relativePose x1 x2).evaluate [q.toList, t.toList] = .ok [r]

theorem HasSampsonError.of_quotient {r : ℝ} (hdenominator : sampsonDenominator q t x1 x2 ≠ 0)
    (hr : epipolarForm q t x1 x2 * epipolarForm q t x1 x2 / sampsonDenominator q t x1 x2 = r) :
    HasSampsonError q t x1 x2 r where
  denominator := hdenominator
  evaluate := by
    refine evaluate_eq_ok.2 ⟨rfl, ?_⟩
    change [sampsonError q t x1 x2] = [r]
    rw [sampsonError_eq, hr]

/-- Where its denominator is not zero, the residual of a correspondence is not negative, and zero just where the
epipolar form is. Neither the length of the quaternion nor the length or the sign of the motion counts, and from the
inverse pose the views exchanged have the same residual. -/
theorem sampsonError_symmetries (hq : q ≠ .zero) (hdenominator : sampsonDenominator q t x1 x2 ≠ 0) :
    ∃ r, HasSampsonError q t x1 x2 r ∧ 0 ≤ r ∧ (r = 0 ↔ epipolarForm q t x1 x2 = 0) ∧
      (∀ s u, s ≠ 0 → u ≠ 0 → HasSampsonError (q.scale s) (t.scale u) x1 x2 r) ∧
      HasSampsonError q.conj (-(q.conj.toMat3.mulVec t)) x2 x1 r ∧
      (q.norm = 1 → (Pose.mk q t).inverse = ⟨q.conj, -(q.conj.toMat3.mulVec t)⟩) := by
  refine ⟨_, .of_quotient hdenominator rfl, ?_, ?_, fun s u hs hu => ?_, ?_, fun hunit => Pose.inverse_eq hunit⟩
  · exact div_nonneg (mul_self_nonneg _) (sampsonDenominator_nonneg q t x1 x2)
  · rw [div_eq_zero_iff, or_iff_left hdenominator, mul_self_eq_zero]
  · refine .of_quotient ?_ ?_
    · rw [sampsonDenominator_scaled hs]
      exact mul_ne_zero hdenominator (pow_ne_zero 2 hu)
    · have hsquare : epipolarForm q t x1 x2 * u * (epipolarForm q t x1 x2 * u) =
          epipolarForm q t x1 x2 * epipolarForm q t x1 x2 * u ^ 2 := by ring
      rw [epipolarForm_scaled hs, sampsonDenominator_scaled hs, hsquare, mul_div_mul_right _ _ (pow_ne_zero 2 hu)]
  · refine .of_quotient ?_ ?_
    · rwa [sampsonDenominator_inverse hq]
    · rw [epipolarForm_inverse hq, sampsonDenominator_inverse hq]

/-- A quarter turn about the third axis, of a quaternion that is no unit. -/
def quarterTurn : Quat ℝ := ⟨0, 0, 1, 1⟩

theorem sampsonDenominator_quarterTurn : sampsonDenominator quarterTurn Vec3.xAxis ⟨0, 0⟩ ⟨0, 1⟩ ≠ 0 := by
  norm_num [sampsonDenominator, quarterTurn, Quat.toMat3, Mat3.skew, Mat3.mul, Mat3.mulVec, Mat3.transpose, Mat3.scale,
    Vec3.dot, Vec3.scale, Vec3.xAxis, Vec2.homogeneous, Scalar.two]

theorem epipolarForm_quarterTurn : epipolarForm quarterTurn Vec3.xAxis ⟨0, 0⟩ ⟨0, 1⟩ ≠ 0 := by
  norm_num [epipolarForm, quarterTurn, Quat.toMat3, Mat3.skew, Mat3.mul, Mat3.mulVec, Mat3.transpose, Mat3.scale,
    Vec3.dot, Vec3.scale, Vec3.xAxis, Vec2.homogeneous, Scalar.two]

theorem sampsonError_symmetries_quarterTurn :
    quarterTurn ≠ .zero ∧ sampsonDenominator quarterTurn Vec3.xAxis ⟨0, 0⟩ ⟨0, 1⟩ ≠ 0 ∧ ∃ r, r ≠ 0 ∧
      HasSampsonError quarterTurn Vec3.xAxis ⟨0, 0⟩ ⟨0, 1⟩ r ∧
      HasSampsonError (quarterTurn.scale (-1)) (Vec3.xAxis.scale (-1)) ⟨0, 0⟩ ⟨0, 1⟩ r ∧
      HasSampsonError quarterTurn.conj (-(quarterTurn.conj.toMat3.mulVec Vec3.xAxis)) ⟨0, 1⟩ ⟨0, 0⟩ r := by
  have hq : quarterTurn ≠ .zero := fun h => one_ne_zero (congrArg Quat.z h)
  have hminus : (-1 : ℝ) ≠ 0 := neg_ne_zero.2 one_ne_zero
  obtain ⟨r, hr, -, hzero, hscaled, hswapped, -⟩ := sampsonError_symmetries hq sampsonDenominator_quarterTurn
  exact ⟨hq, sampsonDenominator_quarterTurn, r, mt hzero.1 epipolarForm_quarterTurn, hr, hscaled _ _ hminus hminus,
    hswapped⟩

end Factor

end MultiView
