import Mathlib
import MultiView.Proofs.Factor.Epipolar
import MultiView.Proofs.PoseBlocks
import MultiView.Proofs.Reconstruction.ReadBack
import MultiView.Proofs.RelativePose

/-!
# The problem of two views and the direction of motion

Of the motion between two views, their problem keeps the direction only (`TwoViews.posed_of_formulate`). In exact
arithmetic, scaling the motion of the guess leaves the problem and its initial values as they are; reversing the motion
reverses the initial direction, and no residual sees that (`Factor.residual_neg`). What is read back from a solution has
unit length, whatever was solved (`TwoViews.norm_of_readBack`).
-/

namespace MultiView

/-- A correspondence has the same residual under the motion and under the motion reversed. -/
theorem Factor.residual_neg (rotation : Quat ℝ) (direction : Vec3 ℝ) (x1 x2 : Vec2 ℝ) :
    (relativePose x1 x2).residual [rotation.toList, (-direction).toList] =
      (relativePose x1 x2).residual [rotation.toList, direction.toList] := by
  change [sampsonError rotation (-direction) x1 x2] = [sampsonError rotation direction x1 x2]
  have hsquare : ∀ e d : ℝ, e * -1 * (e * -1) / (d * (-1) ^ 2) = e * e / d := fun e d => by ring
  rw [sampsonError_eq, sampsonError_eq, ← Vec3.scale_neg_one, epipolarForm_scale, sampsonDenominator_scale, hsquare]

namespace TwoViews

open Measurement

/-! ## What is posed -/

section Posed

variable {α : Type} {v : TwoViews α} {options : RelativePoseOptions α}

/-- A problem of a rotation block, which starts at the guess, and a direction block, with a residual block for each
correspondence, in order. -/
structure Posed (v : TwoViews α) (options : RelativePoseOptions α) (direction : Vec3 α) (f : Formulation α) :
    Prop where
  params : f.problem.params = [⟨0, "rotation", 4, .so3, .free, none⟩, ⟨1, "translation", 3, .s2, .free, none⟩]
  residuals : f.problem.residuals = v.pairs.map fun x => .make (.relativePose x.1 x.2) [0, 1] options.loss
  initial : f.initial = ⟨[("rotation", v.guess.rot.toList), ("translation", direction.toList)]⟩

theorem Posed.problem_eq {direction direction' : Vec3 α} {f f' : Formulation α} (h : v.Posed options direction f)
    (h' : v.Posed options direction' f') : f'.problem = f.problem := by
  rw [Problem.mk.injEq]
  exact ⟨h'.params.trans h.params.symm, h'.residuals.trans h.residuals.symm⟩

variable [Scalar α]

theorem posed_assemble (direction : Vec3 α) : v.Posed options direction
    (assemble (blockSpec v.guess.rot direction) options.loss [.rotation, .trans] v.measurements) where
  params := rfl
  residuals := by
    rw [assemble, measurements_eq, List.map_map]
    rfl
  initial := rfl

/-- The two views with the motion of the guess multiplied by a number. -/
def scaleMotion (v : TwoViews α) (s : α) : TwoViews α := { v with guess := ⟨v.guess.rot, v.guess.trans.scale s⟩ }

end Posed

variable {v : TwoViews ℝ} {options : RelativePoseOptions ℝ} {f : Formulation ℝ}

/-- Two views have a problem if they have enough correspondences and the guess moves. -/
theorem exists_formulate : (∃ f, v.formulate options = .ok f) ↔
    v.points1.length = v.points2.length ∧ 5 ≤ v.points1.length ∧ 1 / 2 ^ 52 < v.guess.trans.norm := by
  simp only [formulate_eq_ok, Vec3.direction?_eq_some]
  constructor
  · rintro ⟨f, hlength, hcount, direction, ⟨hmoves, -⟩, -⟩
    exact ⟨hlength, hcount, hmoves⟩
  · rintro ⟨hlength, hcount, hmoves⟩
    exact ⟨_, hlength, hcount, _, ⟨hmoves, rfl⟩, rfl⟩

/-- What is posed starts from the direction of the guess. -/
theorem posed_of_formulate (h : v.formulate options = .ok f) :
    v.Posed options v.guess.trans.normalize f ∧ v.guess.trans.normalize.norm = 1 := by
  obtain ⟨-, -, direction, hdirection, rfl⟩ := formulate_eq_ok.1 h
  obtain ⟨hmoves, rfl⟩ := Vec3.direction?_eq_some.1 hdirection
  exact ⟨posed_assemble _, Vec3.norm_normalize (lt_trans (by positivity) hmoves)⟩

/-! ## Other lengths of the motion -/

/-- A longer or shorter motion has the same formulation. -/
theorem formulate_scaleMotion (h : v.formulate options = .ok f) {s : ℝ} (hs : 0 < s)
    (hmoves : 1 / 2 ^ 52 < (v.guess.trans.scale s).norm) : (v.scaleMotion s).formulate options = .ok f := by
  obtain ⟨hlength, hcount, direction, hdirection, rfl⟩ := formulate_eq_ok.1 h
  obtain ⟨-, rfl⟩ := Vec3.direction?_eq_some.1 hdirection
  refine formulate_eq_ok.2 ⟨hlength, hcount, _, Vec3.direction?_eq_some.2 ⟨hmoves, rfl⟩, ?_⟩
  rw [scaleMotion, Vec3.normalize_scale _ hs]
  rfl

/-- A motion reversed has the same problem, which starts from the direction reversed and at the same cost. -/
theorem formulate_scaleMotion_of_neg (h : v.formulate options = .ok f) {s : ℝ} (hs : s < 0)
    (hmoves : 1 / 2 ^ 52 < (v.guess.trans.scale s).norm) :
    ∃ f', (v.scaleMotion s).formulate options = .ok f' ∧ v.Posed options (-v.guess.trans.normalize) f' ∧
      ∃ c, f.problem.cost f.initial = .ok c ∧ f'.problem.cost f'.initial = .ok c := by
  obtain ⟨hlength, hcount, direction, hdirection, rfl⟩ := formulate_eq_ok.1 h
  obtain ⟨-, rfl⟩ := Vec3.direction?_eq_some.1 hdirection
  have hreversed : (v.guess.trans.scale s).direction? = some (-v.guess.trans.normalize) :=
    Vec3.direction?_eq_some.2 ⟨hmoves, (Vec3.normalize_scale_of_neg _ hs).symm⟩
  refine ⟨_, formulate_eq_ok.2 ⟨hlength, hcount, _, hreversed, rfl⟩, posed_assemble _, _,
    Problem.cost_eq_ok.2 ⟨_, evaluate_initial .., rfl⟩, Problem.cost_eq_ok.2 ⟨_, evaluate_initial .., ?_⟩⟩
  simp only [Factor.residual_neg]
  rfl

/-! ## What is read back -/

/-- Whatever was solved, what is read of it has unit length. -/
theorem norm_of_readBack {s : Solution ℝ} {r : RelativePoseResult ℝ} (h : readBack s = .ok r) :
    r.pose.rot.norm = 1 ∧ r.pose.trans.norm = 1 := by
  simp only [readBack, bind_eq_ok, mapError_eq_ok, orFail_eq_ok, pure_eq_ok] at h
  obtain ⟨block, -, rotation, hrotation, block', -, trans, -, direction, hdirection, rfl⟩ := h
  obtain ⟨q, hq, -, rfl⟩ := Quat.ofBlock_eq_ok.1 hrotation
  obtain ⟨hmoves, rfl⟩ := Vec3.direction?_eq_some.1 hdirection
  exact ⟨Quat.norm_normalize hq, Vec3.norm_normalize (lt_trans (by positivity) hmoves)⟩

theorem norm_of_refine {optimizer : Optimizer ℝ} {solver : SolveOptions ℝ} {r : RelativePoseResult ℝ}
    (h : v.refine optimizer options solver = .ok r) : r.pose.rot.norm = 1 ∧ r.pose.trans.norm = 1 := by
  simp only [refine, bind_eq_ok, mapError_eq_ok] at h
  obtain ⟨f, -, s, -, hread⟩ := h
  exact norm_of_readBack hread

/-- A guess of some rotation is refined, if only to itself by an optimizer that changes nothing. -/
theorem exists_refine_still (h : v.formulate options = .ok f) (hloss : options.loss.Admissible)
    (hrotation : v.guess.rot ≠ .zero) (solver : SolveOptions ℝ) : ∃ r, v.refine .still options solver = .ok r := by
  obtain ⟨hlength, hcount, direction, hdirection, rfl⟩ := formulate_eq_ok.1 h
  obtain ⟨hmoves, rfl⟩ := Vec3.direction?_eq_some.1 hdirection
  obtain ⟨x, hx⟩ : ∃ x, x ∈ v.pairs := by
    refine List.exists_mem_of_ne_nil _ (List.length_pos_iff.1 ?_)
    rw [pairs, List.length_zip, ← hlength, Nat.min_self]
    exact lt_of_lt_of_le (by decide) hcount
  have hmeasured : ⟨.relativePose x.1 x.2, [.rotation, .trans]⟩ ∈ v.measurements := by
    rw [measurements_eq]
    exact List.mem_map_of_mem hx
  have hsound : Formulation.Sound _ options.loss := (consistent v.guess.rot v.guess.trans.normalize).sound
    (List.ne_nil_of_mem hmeasured) fun k _ => ⟨_, hmeasured, by cases k <;> simp⟩
  obtain ⟨s, hs⟩ := hsound.exists_solve_moving hloss .none solver
  -- the blocks that are read back are those of the guess
  have hrotationBlock : s.params.block? RelativePoseKey.rotation = some v.guess.rot.toList :=
    block?_of_solve_still hs (by simp)
  have htransBlock : s.params.block? RelativePoseKey.trans = some v.guess.trans.normalize.toList :=
    block?_of_solve_still hs (by simp)
  have hunit := Vec3.norm_normalize (lt_trans (by positivity) hmoves)
  have hagain : v.guess.trans.normalize.direction? = some v.guess.trans.normalize.normalize :=
    Vec3.direction?_eq_some.2 ⟨by rw [hunit]; norm_num, rfl⟩
  refine ⟨⟨⟨v.guess.rot.normalize, v.guess.trans.normalize.normalize⟩, s.initialCost, s.finalCost⟩, ?_⟩
  simp only [refine, h, ok_bind, hs, Except.mapError]
  simp only [readBack, solved, hrotationBlock, htransBlock, orFail_eq_ok, bind_eq_ok, mapError_eq_ok, pure_eq_ok]
  exact ⟨_, rfl, _, Quat.ofBlock_eq_ok.2 ⟨_, hrotation, rfl, rfl⟩, _, rfl, _, Vec3.ofBlock_toList _, _, hagain, rfl⟩

/-! ## The direction alone counts -/

/-- Two views have a problem just if they have the same number of points, at least five, and a motion longer than the
least one that has a direction. Of that motion the problem keeps the direction: another length changes nothing, and the
motion reversed is another start of the same problem, at the same cost. Results have unit length. -/
theorem formulate_direction (v : TwoViews ℝ) (options : RelativePoseOptions ℝ) :
    ((∃ f, v.formulate options = .ok f) ↔
      v.points1.length = v.points2.length ∧ 5 ≤ v.points1.length ∧ 1 / 2 ^ 52 < v.guess.trans.norm) ∧
    (∀ f, v.formulate options = .ok f →
      (v.Posed options v.guess.trans.normalize f ∧ v.guess.trans.normalize.norm = 1) ∧
      (∀ s > 0, 1 / 2 ^ 52 < (v.guess.trans.scale s).norm → (v.scaleMotion s).formulate options = .ok f) ∧
      ∀ s < 0, 1 / 2 ^ 52 < (v.guess.trans.scale s).norm →
        ∃ f', (v.scaleMotion s).formulate options = .ok f' ∧ f'.problem = f.problem ∧
          v.Posed options (-v.guess.trans.normalize) f' ∧
          ∃ c, f.problem.cost f.initial = .ok c ∧ f'.problem.cost f'.initial = .ok c) ∧
    ∀ optimizer solver r, v.refine optimizer options solver = .ok r → r.pose.rot.norm = 1 ∧ r.pose.trans.norm = 1 := by
  refine ⟨exists_formulate, fun f hf => ⟨posed_of_formulate hf, fun s hs => formulate_scaleMotion hf hs,
    fun s hs hmoves => ?_⟩, fun optimizer solver r => norm_of_refine⟩
  obtain ⟨f', hf', hposed, hcost⟩ := formulate_scaleMotion_of_neg hf hs hmoves
  exact ⟨f', hf', (posed_of_formulate hf).1.problem_eq hposed, hposed, hcost⟩

/-- Five correspondences, and a guess that moves sideways by a length other than one. -/
noncomputable def sideways : TwoViews ℝ where
  points1 := [⟨0, 0⟩, ⟨1, 0⟩, ⟨0, 1⟩, ⟨1, 1⟩, ⟨-1, 0⟩]
  points2 := [⟨1, 0⟩, ⟨1, 1⟩, ⟨0, 1⟩, ⟨0, 0⟩, ⟨0, -1⟩]
  guess := ⟨.one, Vec3.xAxis.scale Scalar.two⟩

theorem norm_guess_sideways : sideways.guess.trans.norm = 2 := by
  have haxis : (Vec3.xAxis : Vec3 ℝ).norm = 1 := Vec3.norm_eq_one.2 (by norm_num [Vec3.xAxis, Vec3.normSq])
  rw [sideways, Vec3.norm_scale, haxis]
  norm_num [Scalar.two]

theorem formulate_direction_sideways : ∃ f, sideways.formulate .default = .ok f ∧
    (sideways.scaleMotion 3).formulate .default = .ok f ∧
    (∃ f' c, (sideways.scaleMotion (-3)).formulate .default = .ok f' ∧ f'.problem = f.problem ∧
      f.problem.cost f.initial = .ok c ∧ f'.problem.cost f'.initial = .ok c) ∧
    ∃ r, sideways.refine .still .default .default = .ok r ∧ r.pose.rot.norm = 1 ∧ r.pose.trans.norm = 1 := by
  obtain ⟨hposed, hscaled, hunit⟩ := formulate_direction sideways .default
  have hmoves : ∀ s : ℝ, 1 ≤ |s| → 1 / 2 ^ 52 < (sideways.guess.trans.scale s).norm := fun s hs => by
    rw [Vec3.norm_scale, norm_guess_sideways]
    linarith
  obtain ⟨f, hf⟩ := hposed.2 ⟨rfl, le_rfl, by rw [norm_guess_sideways]; norm_num⟩
  obtain ⟨-, hlonger, hreversed⟩ := hscaled f hf
  obtain ⟨f', hf', hproblem, -, c, hcost, hcost'⟩ := hreversed (-3) (by norm_num) (hmoves _ (by norm_num))
  have hloss : (RelativePoseOptions.default : RelativePoseOptions ℝ).loss.Admissible :=
    .inr ⟨_, _, rfl, rfl, one_pos⟩
  have hrotation : sideways.guess.rot ≠ .zero := fun h => one_ne_zero (congrArg Quat.w h)
  obtain ⟨r, hr⟩ := exists_refine_still hf hloss hrotation .default
  exact ⟨f, hf, hlonger 3 (by norm_num) (hmoves _ (by norm_num)), ⟨f', c, hf', hproblem, hcost, hcost'⟩, r, hr,
    hunit _ _ r hr⟩

end TwoViews

end MultiView
