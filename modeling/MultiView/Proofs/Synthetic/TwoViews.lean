import Mathlib
import MultiView.Proofs.Factor.Epipolar
import MultiView.Proofs.RelativePose
import MultiView.Proofs.Synthetic.GroundTruth

/-!
# Two synthetic views

The correspondences of points between a camera at the world frame and one at a pose are what both cameras see of the
points in front of both (`Scene.twoViewCorrespondences_eq`). In exact arithmetic they meet the epipolar constraint of
the pose, so the relative pose problem with the pose itself as guess starts from cost zero
(`Scene.twoViewCorrespondences_consistent`).
-/

namespace MultiView

/-- A guess that meets the epipolar constraints of the correspondences starts from cost zero. -/
theorem TwoViews.exists_formulate_of_epipolarForm {v : TwoViews ℝ} (hlength : v.points1.length = v.points2.length)
    (hcount : 5 ≤ v.points1.length) (hmoves : 1 / 2 ^ 52 < v.guess.trans.norm)
    (hform : ∀ x ∈ v.pairs, Factor.epipolarForm v.guess.rot v.guess.trans x.1 x.2 = 0)
    (options : RelativePoseOptions ℝ) :
    ∃ f, v.formulate options = .ok f ∧ f.problem.cost f.initial = .ok 0 := by
  have hresidual : ∀ x ∈ v.pairs, (Factor.relativePose x.1 x.2).residual
      [v.guess.rot.toList, v.guess.trans.normalize.toList] = [0] := fun x hx => by
    -- the direction meets the constraint because the form scales with the motion
    have hdirection : Factor.epipolarForm v.guess.rot v.guess.trans.normalize x.1 x.2 = 0 := by
      rw [Vec3.normalize_eq_scale, Factor.epipolarForm_scale, hform x hx, zero_mul]
    exact (Factor.evaluate_eq_ok.1 (Factor.evaluate_of_epipolarForm hdirection)).2
  have hcost : totalCost (v.pairs.map fun x => (Factor.relativePose x.1 x.2).residual
      [v.guess.rot.toList, v.guess.trans.normalize.toList]) = 0 := by
    refine totalCost_eq_zero fun r hr => ?_
    obtain ⟨x, hx, rfl⟩ := List.mem_map.1 hr
    rw [hresidual x hx]
    norm_num [normSq, Scalar.sum]
  exact ⟨_, formulate_eq_ok.2 ⟨hlength, hcount, _, Vec3.direction?_eq_some.2 ⟨hmoves, rfl⟩, rfl⟩,
    Problem.cost_eq_ok.2 ⟨_, evaluate_initial .., hcost⟩⟩

namespace Scene

/-- Is a point in front of a camera at the world frame and of a camera at a pose? -/
def inBothViews {α : Type} [Scalar α] (pose : Pose α) (p : Vec3 α) : Bool :=
  decide (0 < p.z) && decide (0 < (pose.apply p).z)

variable {pose : Pose ℝ} {points : List (Vec3 ℝ)}

theorem inBothViews_iff {p : Vec3 ℝ} : inBothViews pose p = true ↔ 0 < p.z ∧ 0 < (pose.apply p).z := by
  rw [inBothViews, Bool.and_eq_true, decide_eq_true_eq, decide_eq_true_eq]

/-- The correspondences are those of the points in both views, in order. -/
theorem filterMap_correspondence? : points.filterMap (correspondence? pose) =
    (points.filter (inBothViews pose)).map fun p => (p.perspective, (pose.apply p).perspective) := by
  rw [← List.filterMap_eq_map, List.filterMap_filter]
  refine List.filterMap_congr fun p _ => ?_
  simp only [correspondence?, Function.comp_apply]
  by_cases h : inBothViews pose p = true
  · obtain ⟨hp, hq⟩ := inBothViews_iff.1 h
    rw [if_pos h, if_neg (by rw [not_or, not_le, not_le]; exact ⟨hp, hq⟩)]
  · rw [if_neg h, if_pos]
    rw [inBothViews_iff, not_and_or, not_lt, not_lt] at h
    exact h

theorem twoViewCorrespondences_eq : twoViewCorrespondences points pose =
    ((points.filter (inBothViews pose)).map (·.perspective),
      (points.filter (inBothViews pose)).map fun p => (pose.apply p).perspective) := by
  rw [twoViewCorrespondences, filterMap_correspondence?, List.unzip_eq_map, List.map_map, List.map_map]
  rfl

/-- The correspondences of a point in both views meet the epipolar constraint. -/
theorem epipolarForm_of_mem (hpose : pose.rot.norm = 1) {x1s x2s : List (Vec2 ℝ)}
    (h : twoViewCorrespondences points pose = (x1s, x2s)) {x : Vec2 ℝ × Vec2 ℝ} (hx : x ∈ x1s.zip x2s) :
    Factor.epipolarForm pose.rot pose.trans x.1 x.2 = 0 := by
  obtain ⟨rfl, rfl⟩ := Prod.mk.inj (twoViewCorrespondences_eq.symm.trans h)
  rw [List.zip_map', List.mem_map] at hx
  obtain ⟨p, hp, rfl⟩ := hx
  obtain ⟨hz, hz'⟩ := inBothViews_iff.1 (List.mem_filter.1 hp).2
  exact Factor.epipolarForm_apply hpose hz.ne' hz'.ne'

/-- What two views see of points is what both see of the points in front of both, in order. It meets the epipolar
constraint of the pose, so the relative pose problem that starts from the pose has cost zero there. Where a denominator
is zero, the quotient is undefined and nothing is said about it. -/
theorem twoViewCorrespondences_consistent (hpose : pose.rot.norm = 1) (points : List (Vec3 ℝ)) :
    ∃ x1s x2s, twoViewCorrespondences points pose = (x1s, x2s) ∧ x1s.length = x2s.length ∧
      x1s = (points.filter (inBothViews pose)).map (·.perspective) ∧
      x2s = (points.filter (inBothViews pose)).map (fun p => (pose.apply p).perspective) ∧
      (∀ x ∈ x1s.zip x2s, Factor.epipolarForm pose.rot pose.trans x.1 x.2 = 0 ∧
        (Factor.sampsonDenominator pose.rot pose.trans x.1 x.2 ≠ 0 →
          (Factor.relativePose x.1 x.2).evaluate [pose.rot.toList, pose.trans.toList] = .ok [0])) ∧
      (5 ≤ x1s.length → 1 / 2 ^ 52 < pose.trans.norm →
        ∀ options, ∃ f, TwoViews.formulate ⟨x1s, x2s, pose⟩ options = .ok f ∧
          ((∀ x ∈ x1s.zip x2s, Factor.sampsonDenominator pose.rot pose.trans x.1 x.2 ≠ 0) →
            f.problem.cost f.initial = .ok 0)) := by
  have hviews : twoViewCorrespondences points pose = _ := twoViewCorrespondences_eq
  have hform : ∀ x ∈ _, _ := fun x hx => epipolarForm_of_mem hpose hviews hx
  refine ⟨_, _, hviews, by rw [List.length_map, List.length_map], rfl, rfl, fun x hx => ?_,
    fun hcount hmoves options => ?_⟩
  · exact ⟨hform x hx, fun _ => Factor.evaluate_of_epipolarForm (hform x hx)⟩
  · obtain ⟨f, hf, hcost⟩ := TwoViews.exists_formulate_of_epipolarForm (v := ⟨_, _, pose⟩)
      (by rw [List.length_map, List.length_map]) hcount hmoves hform options
    exact ⟨f, hf, fun _ => hcost⟩

/-! ## A scene -/

/-- A camera beside the first one, turned about the axis that both look along. -/
noncomputable def beside : Pose ℝ := ⟨⟨0, 0, Scalar.decimal 6 1, Scalar.decimal 8 1⟩, Vec3.xAxis⟩

theorem norm_beside : beside.rot.norm = 1 := by
  rw [Quat.norm_eq_one]
  norm_num [beside, Quat.normSq, Scalar.decimal]

/-- No epipolar line of the second view is upright. -/
theorem sampsonDenominator_beside (x1 x2 : Vec2 ℝ) :
    Factor.sampsonDenominator beside.rot beside.trans x1 x2 ≠ 0 := by
  have hline : (((Mat3.skew beside.trans).mul beside.rot.toMat3).mulVec x1.homogeneous).y = -1 := by
    rw [Mat3.mul_mulVec, Mat3.skew_mulVec, Quat.toMat3_mulVec norm_beside]
    norm_num [beside, Vec3.xAxis, Vec3.cross, Quat.rotate, Quat.im, Vec3.scale, Vec2.homogeneous, Scalar.two]
  have hpos : ∀ a b c : ℝ, 0 < a * a + -1 * -1 + b * b + c * c := fun a b c => by
    linarith [mul_self_nonneg a, mul_self_nonneg b, mul_self_nonneg c]
  simp only [Factor.sampsonDenominator, hline]
  exact (hpos _ _ _).ne'

/-- Five points, and one that is behind both cameras. -/
noncomputable def sixPoints : List (Vec3 ℝ) :=
  [⟨0, 0, 1⟩, ⟨1, 0, 1⟩, ⟨0, 0, -1⟩, ⟨0, 1, 1⟩, ⟨1, 1, 1⟩, ⟨-1, 0, 1⟩]

theorem twoViewCorrespondences_consistent_beside : ∃ x1s x2s,
    twoViewCorrespondences sixPoints beside = (x1s, x2s) ∧ x1s.length = 5 ∧
      ∀ options, ∃ f, TwoViews.formulate ⟨x1s, x2s, beside⟩ options = .ok f ∧ f.problem.cost f.initial = .ok 0 := by
  obtain ⟨x1s, x2s, hviews, -, hx1s, -, -, hproblem⟩ := twoViewCorrespondences_consistent norm_beside sixPoints
  have hdepth : ∀ p : Vec3 ℝ, (beside.apply p).z = p.z := fun p => by
    simp [beside, Pose.apply, Quat.rotate, Quat.im, Vec3.cross, Vec3.scale, Vec3.xAxis]
  have hcount : x1s.length = 5 := by
    rw [hx1s]
    simp [sixPoints, inBothViews, hdepth]
  have hmoves : 1 / 2 ^ 52 < beside.trans.norm := by
    have hnorm : beside.trans.norm = 1 := by
      rw [Vec3.norm_eq_one]
      norm_num [beside, Vec3.xAxis, Vec3.normSq]
    rw [hnorm]
    norm_num
  refine ⟨x1s, x2s, hviews, hcount, fun options => ?_⟩
  obtain ⟨f, hf, hcost⟩ := hproblem hcount.ge hmoves options
  exact ⟨f, hf, hcost fun x _ => sampsonDenominator_beside x.1 x.2⟩

end Scene

end MultiView
