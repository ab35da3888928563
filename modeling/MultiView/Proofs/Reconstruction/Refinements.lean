import Mathlib
import MultiView.Proofs.Bundle.Residuals
import MultiView.Proofs.Bundle.Resume
import MultiView.Proofs.Geometry.Rotation
import MultiView.Proofs.Problem.Cost
import MultiView.Proofs.Rig.Flatten
import MultiView.Proofs.Rig.Resume

/-!
# Refining valid datasets

What holds of bundle adjustment and of rig adjustment alike, whatever the optimizer answers as long as it keeps names
and lengths: what took part comes back with its solved values and all else as it was, and refining fails only for the
reasons that `RefineFails` lists (`refine_outcome`). In exact arithmetic, a refined reconstruction is where its
refinement ended: its problem is the same, and its initial cost is the final cost that was reported (`refine_resumes`);
and what the options hold constant comes back unchanged (`refine_constants`).

The three are seen at work on a dataset of two images, and on the same one of a rig, with an optimizer that moves the
focal length (`Optimizer.refocus`).
-/

namespace MultiView

open Measurement

/-! ## A scene -/

/-- A point beside the optical axis, seen from two places as through a focal length of one. A second camera takes no
picture, and a second point is in one picture only. -/
noncomputable def BundleDataset.offAxis (focal : ℝ) : BundleDataset ℝ where
  cameras := [⟨.simplePinhole, [focal, 0, 0]⟩, ⟨.simplePinhole, [1, 0, 0]⟩]
  images := [⟨0, .one, [⟨0, ⟨1, 0⟩⟩, ⟨1, ⟨0, 0⟩⟩]⟩, ⟨0, ⟨.one, ⟨1, 0, 1⟩⟩, [⟨0, ⟨1, 0⟩⟩]⟩]
  points := [⟨1, 0, 1⟩, ⟨0, 0, 1⟩]

/-- The same points, seen by a rig that carries the first camera twice. -/
noncomputable def RigDataset.offAxis (focal : ℝ) : RigDataset ℝ where
  cameras := [⟨.simplePinhole, [focal, 0, 0]⟩, ⟨.simplePinhole, [1, 0, 0]⟩]
  rigs := [⟨[⟨0, .one⟩, ⟨0, .one⟩]⟩]
  snapshots :=
    [⟨0, .one, [⟨0, [⟨0, ⟨1, 0⟩⟩, ⟨1, ⟨0, 0⟩⟩]⟩]⟩, ⟨0, ⟨.one, ⟨1, 0, 1⟩⟩, [⟨1, [⟨0, ⟨1, 0⟩⟩]⟩]⟩]
  points := [⟨1, 0, 1⟩, ⟨0, 0, 1⟩]

/-- The first pose and the first point are held constant; every observation counts. -/
def BundleOptions.held {α : Type} : BundleOptions α := ⟨.none, .default, [0], [0], 1⟩

/-- The first pose, the first point and the cameras' poses on their rig are held constant; every observation counts. -/
def RigOptions.held {α : Type} : RigOptions α := ⟨.none, .default, false, [0], [0], 1⟩

/-- Points that are seen once are left out. -/
def BundleOptions.paired {α : Type} : BundleOptions α := { held with minTrackLength := 2 }

def RigOptions.paired {α : Type} : RigOptions α := { held with minTrackLength := 2 }

/-- An optimizer that sets the focal length of the first camera, and nothing else. -/
def Optimizer.refocus {α : Type} (focal : α) : Optimizer α := .moving (.write "cam/0" 0 focal)

theorem Camera.valid_offAxis {focal : ℝ} (h : 0 < focal) : (⟨.simplePinhole, [focal, 0, 0]⟩ : Camera ℝ).Valid := by
  refine ⟨rfl, fun i hi => ?_⟩
  obtain rfl := List.mem_singleton.1 hi
  exact decide_eq_true (p := (0 : ℝ) < focal) h

theorem BundleDataset.valid_offAxis {focal : ℝ} (h : 0 < focal) : (offAxis focal).Valid where
  images := List.cons_ne_nil _ _
  cameras := by simp [offAxis, Camera.valid_offAxis, h]
  camera := by simp [offAxis]
  point := by simp [offAxis]

theorem RigDataset.valid_offAxis {focal : ℝ} (h : 0 < focal) : (offAxis focal).Valid where
  snapshots := List.cons_ne_nil _ _
  cameras := by simp [offAxis, Camera.valid_offAxis, h]
  mounted := by simp [offAxis]
  images := by
    intro snapshot hsnapshot
    simp only [offAxis, List.mem_cons, List.not_mem_nil, or_false] at hsnapshot
    refine ⟨⟨[⟨0, .one⟩, ⟨0, .one⟩]⟩, by rcases hsnapshot with rfl | rfl <;> rfl, fun image himage => ?_⟩
    rcases hsnapshot with rfl | rfl <;> obtain rfl := List.mem_singleton.1 himage <;>
      exact ⟨by simp, by simp [offAxis]⟩

theorem BundleDataset.make_offAxis {focal : ℝ} (h : 0 < focal) :
    make (offAxis focal).cameras (offAxis focal).images (offAxis focal).points = .ok (offAxis focal) :=
  make_eq_ok.2 ⟨rfl, valid_offAxis h⟩

theorem RigDataset.make_offAxis {focal : ℝ} (h : 0 < focal) :
    make (offAxis focal).cameras (offAxis focal).rigs (offAxis focal).snapshots (offAxis focal).points =
      .ok (offAxis focal) :=
  make_eq_ok.2 ⟨rfl, valid_offAxis h⟩

theorem BundleDataset.norm_offAxis {focal : ℝ} : ∀ image ∈ (offAxis focal).images, image.pose.rot.norm = 1 := by
  simp [offAxis, Pose.one, Quat.norm_one]

theorem RigDataset.unitRotations_offAxis {focal : ℝ} : (offAxis focal).UnitRotations := by
  constructor <;> simp [offAxis, Pose.one, Quat.norm_one]

/-- Without its rig, the rig's dataset is the other one. -/
theorem RigDataset.flatten_offAxis {focal : ℝ} : (offAxis focal).flatten = .offAxis focal := by
  have himages : (offAxis focal).flatten.images =
    [⟨0, Pose.one.comp .one, [⟨0, ⟨1, 0⟩⟩, ⟨1, ⟨0, 0⟩⟩]⟩, ⟨0, Pose.one.comp ⟨.one, ⟨1, 0, 1⟩⟩, [⟨0, ⟨1, 0⟩⟩]⟩] := rfl
  rw [Pose.one_comp, Pose.one_comp] at himages
  exact congrArg (BundleDataset.mk _ · _) himages

theorem BundleDataset.residuals_offAxis {focal : ℝ} :
    (offAxis focal).residuals 2 = [[focal - 1, 0], [focal - 1, 0]] := by
  have happly : (⟨.one, ⟨1, 0, 1⟩⟩ : Pose ℝ).apply ⟨1, 0, 1⟩ = ⟨2, 0, 2⟩ := by
    ext <;> simp [Pose.apply, Quat.one, Quat.rotate, Quat.im, Vec3.cross, Vec3.scale] <;> norm_num
  have hproject : ∀ z : ℝ, z ≠ 0 →
      (Factor.reprojectionError ⟨focal, focal, 0, 0, .none⟩ ⟨z, 0, z⟩ ⟨1, 0⟩).toList = [focal - 1, 0] := by
    intro z hz
    change [focal * (z / z + 0) + 0 - 1, focal * (0 / z + 0) + 0 - 0] = [focal - 1, 0]
    rw [div_self hz, zero_div]
    ring_nf
  have hresiduals : (offAxis focal).residuals 2 =
      [(Factor.reprojectionError ⟨focal, focal, 0, 0, .none⟩ (Pose.one.apply ⟨1, 0, 1⟩) ⟨1, 0⟩).toList,
        (Factor.reprojectionError ⟨focal, focal, 0, 0, .none⟩ ((⟨.one, ⟨1, 0, 1⟩⟩ : Pose ℝ).apply ⟨1, 0, 1⟩)
          ⟨1, 0⟩).toList] := rfl
  rw [hresiduals, happly, Pose.one_apply, hproject 1 one_ne_zero, hproject 2 two_ne_zero]

/-- The datasets cost nothing at a focal length of one. -/
theorem Formulation.Measures.cost_offAxis {focal : ℝ} {outcome : Except (RefineError ℝ) (Formulation ℝ)}
    (h : Formulation.Measures outcome ((BundleDataset.offAxis focal).residuals 2)) {f : Formulation ℝ}
    (hf : outcome = .ok f) : f.problem.cost f.initial = .ok ((focal - 1) ^ 2) := by
  have htotal : totalCost ((BundleDataset.offAxis focal).residuals 2) = (focal - 1) ^ 2 := by
    rw [BundleDataset.residuals_offAxis, totalCost_eq]
    simp [normSq, Scalar.sum]
    ring
  exact htotal ▸ h.cost hf

theorem BundleDataset.cost_offAxis {focal : ℝ} (h : 0 < focal) {f : Formulation ℝ}
    (hf : (offAxis focal).formulate .paired = .ok f) : f.problem.cost f.initial = .ok ((focal - 1) ^ 2) :=
  (measures (valid_offAxis h)).cost_offAxis hf

theorem RigDataset.cost_offAxis {focal : ℝ} (h : 0 < focal) {f : Formulation ℝ}
    (hf : (offAxis focal).formulate .paired = .ok f) : f.problem.cost f.initial = .ok ((focal - 1) ^ 2) := by
  have hmeasures : Formulation.Measures ((offAxis focal).formulate .paired) _ := measures (valid_offAxis h)
  rw [flatten_offAxis] at hmeasures
  exact hmeasures.cost_offAxis hf

/-- From a focal length of two, an optimizer is asked. -/
theorem Solution.large_offAxis {f : Formulation ℝ} {optimizer : Optimizer ℝ} {s : Solution ℝ}
    (hcost : f.problem.cost f.initial = .ok ((2 - 1) ^ 2))
    (hs : f.problem.solve optimizer f.initial .default = .ok s) :
    (SolveOptions.default : SolveOptions ℝ).stopping.minError < s.initialCost := by
  have hinitial := Except.ok.inj (hcost.symm.trans (Problem.initialCost_of_solve hs))
  rw [← hinitial]
  norm_num [SolveOptions.default, SolveOptions.stopping, Scalar.decimal]

/-! ### Another focal length -/

namespace BundleDataset

variable {focal : ℝ}

theorem exists_solve_refocus (focal : ℝ) : ∃ f s, (offAxis 2).formulate .paired = .ok f ∧
    f.problem.solve (.refocus focal) f.initial .default = .ok s :=
  exists_solve_moving (valid_offAxis two_pos) (.inl rfl) ⟨_, List.mem_of_getElem? (i := 0) rfl, rfl⟩ _ _

/-- The new focal length is solved, and all else is as it was. -/
theorem solved_refocus {f : Formulation ℝ} (hf : (offAxis 2).formulate .paired = .ok f) {s : Solution ℝ}
    (hs : f.problem.solve (.refocus focal) f.initial .default = .ok s) {k : BundleKey}
    (hk : (offAxis 2).Uses .paired k) : s.params.block? k =
      some ((Move.write "cam/0" 0 focal).value (BlockKey.name k) ((offAxis 2).blockSpec .paired k).value) :=
  moved_of_solve (valid_offAxis two_pos) hf hs (Solution.large_offAxis (cost_offAxis two_pos hf) hs) hk

theorem uses_camera_offAxis : (offAxis focal).Uses .paired (.camera 0) :=
  ⟨_, List.mem_of_getElem? (i := 0) rfl, rfl⟩

/-- Writing the focal length touches nothing that is held constant. -/
theorem callsKeep_refocus {f : Formulation ℝ} (hf : (offAxis 2).formulate .paired = .ok f) :
    f.problem.CallsKeep (.refocus focal) f.initial .default Compiled.HoldsUnit :=
  callsKeep_write (valid_offAxis two_pos) hf (i := 0) rfl rfl focal _

/-- A focal length of zero cannot be read back. -/
theorem refineFails_refocus :
    RefineFails ((offAxis 2).formulate .paired) (.refocus 0) .default ((offAxis 2).Unreadable .paired) := by
  obtain ⟨f, s, hf, hs⟩ := exists_solve_refocus 0
  have hsolved := solved_refocus hf hs uses_camera_offAxis
  have hzero : Scalar.isPositive (0 : ℝ) = false := by simp [Scalar.isPositive]
  exact .inr ⟨f, hf, .inr (.inr ⟨s, hs, .inl ⟨0, _, rfl, uses_camera_offAxis, _, hsolved, 0,
    List.mem_singleton_self 0, hzero⟩⟩)⟩

theorem exists_refine_refocus (h : 0 < focal) :
    ∃ r, (offAxis 2).refine (.refocus focal) .paired .default = .ok r := by
  have hposes : ∀ image ∈ (offAxis 2).images, image.pose.rot.IsDirection :=
    fun image himage => Quat.isDirection_of_norm (norm_offAxis image himage)
  exact exists_refine_write (valid_offAxis two_pos) (.inl rfl) ⟨_, List.mem_of_getElem? (i := 0) rfl, rfl⟩ hposes
    (i := 0) rfl (j := 0) (a := focal) (Camera.valid_offAxis h) _

/-- The refined dataset is the one of the new focal length. -/
theorem replace_refocus {r : BundleResult ℝ} (hr : (offAxis 2).refine (.refocus focal) .paired .default = .ok r) :
    (offAxis 2).replace r = offAxis focal := by
  obtain ⟨f, s, hf, hs, hrefined⟩ :=
    refined_of_refine (valid_offAxis two_pos) (fun f _ => Problem.callsKeepLengths_moving) hr
  have hcameras : r.cameras = (offAxis focal).cameras := eq_of_forall₂ hrefined.cameras
    (.cons (fun c hc => congrArg₂ Camera.mk hc.model
        (Option.some.inj ((hc.solved uses_camera_offAxis).symm.trans (solved_refocus hf hs uses_camera_offAxis))))
      (.cons (fun c hc => hc.eq_of_stays (solved_refocus hf hs)) .nil))
  have hposes : r.poses = [.one, ⟨.one, ⟨1, 0, 1⟩⟩] := eq_of_forall₂ hrefined.poses
    (.cons (fun p hp => hp.eq_of_unmoved Quat.norm_one (solved_refocus hf hs) (solved_refocus (k := .trans 0) hf hs))
      (.cons (fun p hp => hp.eq_of_unmoved Quat.norm_one (solved_refocus hf hs) (solved_refocus (k := .trans 1) hf hs))
        .nil))
  have hpoints : r.points = [⟨1, 0, 1⟩, ⟨0, 0, 1⟩] := eq_of_forall₂ hrefined.points
    (.cons (fun x hx => hx.eq_of_stays (solved_refocus hf hs))
      (.cons (fun x hx => hx.eq_of_stays (solved_refocus hf hs)) .nil))
  rw [replace, hcameras, hposes, hpoints]
  rfl

end BundleDataset

namespace RigDataset

variable {focal : ℝ}

theorem exists_solve_refocus (focal : ℝ) : ∃ f s, (offAxis 2).formulate .paired = .ok f ∧
    f.problem.solve (.refocus focal) f.initial .default = .ok s :=
  exists_solve_moving (valid_offAxis two_pos) (.inl rfl) ⟨_, List.mem_of_getElem? (i := 0) rfl, rfl⟩ _ _

/-- The new focal length is solved, and all else is as it was. -/
theorem solved_refocus {f : Formulation ℝ} (hf : (offAxis 2).formulate .paired = .ok f) {s : Solution ℝ}
    (hs : f.problem.solve (.refocus focal) f.initial .default = .ok s) {k : RigKey}
    (hk : (offAxis 2).Uses .paired k) : s.params.block? k =
      some ((Move.write "cam/0" 0 focal).value (BlockKey.name k) ((offAxis 2).blockSpec .paired k).value) :=
  moved_of_solve (valid_offAxis two_pos) hf hs (Solution.large_offAxis (cost_offAxis two_pos hf) hs) hk

theorem uses_camera_offAxis : (offAxis focal).Uses .paired (.camera 0) :=
  ⟨_, List.mem_of_getElem? (i := 0) rfl, _, rfl, rfl⟩

/-- Writing the focal length touches nothing that is held constant. -/
theorem callsKeep_refocus {f : Formulation ℝ} (hf : (offAxis 2).formulate .paired = .ok f) :
    f.problem.CallsKeep (.refocus focal) f.initial .default Compiled.HoldsUnit :=
  callsKeep_write (valid_offAxis two_pos) hf (i := 0) rfl rfl focal _

/-- A focal length of zero cannot be read back. -/
theorem refineFails_refocus :
    RefineFails ((offAxis 2).formulate .paired) (.refocus 0) .default ((offAxis 2).Unreadable .paired) := by
  obtain ⟨f, s, hf, hs⟩ := exists_solve_refocus 0
  have hsolved := solved_refocus hf hs uses_camera_offAxis
  have hzero : Scalar.isPositive (0 : ℝ) = false := by simp [Scalar.isPositive]
  exact .inr ⟨f, hf, .inr (.inr ⟨s, hs, .inl ⟨0, _, rfl, uses_camera_offAxis, _, hsolved, 0,
    List.mem_singleton_self 0, hzero⟩⟩)⟩

theorem exists_refine_refocus (h : 0 < focal) :
    ∃ r, (offAxis 2).refine (.refocus focal) .paired .default = .ok r := by
  have hunit : (offAxis 2).UnitRotations := unitRotations_offAxis
  exact exists_refine_write (valid_offAxis two_pos) (.inl rfl) ⟨_, List.mem_of_getElem? (i := 0) rfl, rfl⟩
    (fun rig hrig m hm => Quat.isDirection_of_norm (hunit.mounted rig hrig m hm))
    (fun snapshot hsnapshot => Quat.isDirection_of_norm (hunit.snapshots snapshot hsnapshot)) (i := 0) rfl
    (j := 0) (a := focal) (Camera.valid_offAxis h) _

/-- The refined dataset is the one of the new focal length. -/
theorem replace_refocus {r : RigResult ℝ} (hr : (offAxis 2).refine (.refocus focal) .paired .default = .ok r) :
    (offAxis 2).replace r = offAxis focal := by
  obtain ⟨f, s, hf, hs, hrefined⟩ :=
    refined_of_refine (valid_offAxis two_pos) (fun f _ => Problem.callsKeepLengths_moving) hr
  have hcameras : r.cameras = (offAxis focal).cameras := eq_of_forall₂ hrefined.cameras
    (.cons (fun c hc => congrArg₂ Camera.mk hc.model
        (Option.some.inj ((hc.solved uses_camera_offAxis).symm.trans (solved_refocus hf hs uses_camera_offAxis))))
      (.cons (fun c hc => hc.eq_of_stays (solved_refocus hf hs)) .nil))
  have hrelative : r.relativePoses = [[.one, .one]] := eq_of_forall₂ hrefined.relativePoses
    (.cons (fun ps hps => eq_of_forall₂ hps
      (.cons (fun p hp => hp.eq_of_unmoved Quat.norm_one (solved_refocus hf hs)
          (solved_refocus (k := .relTrans 0 0) hf hs))
        (.cons (fun p hp => hp.eq_of_unmoved Quat.norm_one (solved_refocus hf hs)
          (solved_refocus (k := .relTrans 0 1) hf hs)) .nil))) .nil)
  have hposes : r.rigPoses = [.one, ⟨.one, ⟨1, 0, 1⟩⟩] := eq_of_forall₂ hrefined.rigPoses
    (.cons (fun p hp => hp.eq_of_unmoved Quat.norm_one (solved_refocus hf hs)
        (solved_refocus (k := .rigTrans 0) hf hs))
      (.cons (fun p hp => hp.eq_of_unmoved Quat.norm_one (solved_refocus hf hs)
        (solved_refocus (k := .rigTrans 1) hf hs)) .nil))
  have hpoints : r.points = [⟨1, 0, 1⟩, ⟨0, 0, 1⟩] := eq_of_forall₂ hrefined.points
    (.cons (fun x hx => hx.eq_of_stays (solved_refocus hf hs))
      (.cons (fun x hx => hx.eq_of_stays (solved_refocus hf hs)) .nil))
  rw [replace, hcameras, hrelative, hposes, hpoints]
  rfl

end RigDataset

/-! ## Results and failures -/

/-- With an optimizer that keeps names and lengths, a result is that of the solved values, and there is none exactly if
there is no formulation, it does not compile, a call is not answered, or a solved camera or rotation is unreadable. -/
theorem refine_outcome {α : Type} [Scalar α] :
    (∀ (cameras : List (Camera α)) (images : List (Image α)) (points : List (Vec3 α)) (d : BundleDataset α)
        (options : BundleOptions α) (optimizer : Optimizer α) (solver : SolveOptions α),
      BundleDataset.make cameras images points = .ok d →
      (∀ f, d.formulate options = .ok f → f.problem.CallsKeepLengths optimizer f.initial solver) →
      (∀ r, d.refine optimizer options solver = .ok r → ∃ f s, d.formulate options = .ok f ∧
        f.problem.solve optimizer f.initial solver = .ok s ∧ d.Refined options f.problem s r) ∧
      ((∃ e, d.refine optimizer options solver = .error e) ↔
        RefineFails (d.formulate options) optimizer solver (d.Unreadable options))) ∧
    ∀ (cameras : List (Camera α)) (rigs : List (Rig α)) (snapshots : List (Snapshot α)) (points : List (Vec3 α))
        (d : RigDataset α) (options : RigOptions α) (optimizer : Optimizer α) (solver : SolveOptions α),
      RigDataset.make cameras rigs snapshots points = .ok d →
      (∀ f, d.formulate options = .ok f → f.problem.CallsKeepLengths optimizer f.initial solver) →
      (∀ r, d.refine optimizer options solver = .ok r → ∃ f s, d.formulate options = .ok f ∧
        f.problem.solve optimizer f.initial solver = .ok s ∧ d.Refined options f.problem s r) ∧
      ((∃ e, d.refine optimizer options solver = .error e) ↔
        RefineFails (d.formulate options) optimizer solver (d.Unreadable options)) := by
  constructor
  · intro cameras images points d options optimizer solver hd hkeeps
    obtain ⟨-, hvalid⟩ := BundleDataset.make_eq_ok.1 hd
    exact ⟨fun r => BundleDataset.refined_of_refine hvalid hkeeps,
      BundleDataset.exists_error_refine_iff hvalid hkeeps⟩
  · intro cameras rigs snapshots points d options optimizer solver hd hkeeps
    obtain ⟨-, hvalid⟩ := RigDataset.make_eq_ok.1 hd
    exact ⟨fun r => RigDataset.refined_of_refine hvalid hkeeps, RigDataset.exists_error_refine_iff hvalid hkeeps⟩

/-- The new focal length comes back, and so does what takes no part; of the three observations, the two of the point
that is seen twice have residuals. A focal length of zero is not read back. -/
theorem refine_outcome_offAxis :
    (∃ (f : Formulation ℝ) (s : Solution ℝ) (r : BundleResult ℝ),
      (BundleDataset.offAxis 2).refine (.refocus 1) .paired .default = .ok r ∧
      (BundleDataset.offAxis 2).Refined .paired f.problem s r ∧ s.params.get? "cam/0" = some [1, 0, 0] ∧
      r.cameras = (BundleDataset.offAxis 1).cameras ∧ r.numResiduals = 2) ∧
    (∃ e, (BundleDataset.offAxis 2).refine (.refocus 0) .paired .default = .error e) ∧
    (∃ (f : Formulation ℝ) (s : Solution ℝ) (r : RigResult ℝ),
      (RigDataset.offAxis 2).refine (.refocus 1) .paired .default = .ok r ∧
      (RigDataset.offAxis 2).Refined .paired f.problem s r ∧ s.params.get? "cam/0" = some [1, 0, 0] ∧
      r.cameras = (RigDataset.offAxis 1).cameras ∧ r.numResiduals = 2) ∧
    ∃ e, (RigDataset.offAxis 2).refine (.refocus 0) .paired .default = .error e := by
  obtain ⟨hbundle, hrig⟩ := @refine_outcome ℝ _
  refine ⟨?_, ?_, ?_, ?_⟩
  · obtain ⟨r, hr⟩ := BundleDataset.exists_refine_refocus one_pos
    obtain ⟨hrefined, -⟩ := hbundle _ _ _ (.offAxis 2) .paired (.refocus 1) .default
      (BundleDataset.make_offAxis two_pos) fun f _ => Problem.callsKeepLengths_moving
    obtain ⟨f, s, hf, hs, h⟩ := hrefined r hr
    exact ⟨f, s, r, hr, h, BundleDataset.solved_refocus hf hs BundleDataset.uses_camera_offAxis,
      congrArg BundleDataset.cameras (BundleDataset.replace_refocus hr), h.numResiduals.trans rfl⟩
  · obtain ⟨-, hfails⟩ := hbundle _ _ _ (.offAxis 2) .paired (.refocus 0) .default
      (BundleDataset.make_offAxis two_pos) fun f _ => Problem.callsKeepLengths_moving
    exact hfails.2 BundleDataset.refineFails_refocus
  · obtain ⟨r, hr⟩ := RigDataset.exists_refine_refocus one_pos
    obtain ⟨hrefined, -⟩ := hrig _ _ _ _ (.offAxis 2) .paired (.refocus 1) .default
      (RigDataset.make_offAxis two_pos) fun f _ => Problem.callsKeepLengths_moving
    obtain ⟨f, s, hf, hs, h⟩ := hrefined r hr
    exact ⟨f, s, r, hr, h, RigDataset.solved_refocus hf hs RigDataset.uses_camera_offAxis,
      congrArg RigDataset.cameras (RigDataset.replace_refocus hr), h.numResiduals.trans rfl⟩
  · obtain ⟨-, hfails⟩ := hrig _ _ _ _ (.offAxis 2) .paired (.refocus 0) .default
      (RigDataset.make_offAxis two_pos) fun f _ => Problem.callsKeepLengths_moving
    exact hfails.2 RigDataset.refineFails_refocus

/-! ## Exact arithmetic -/

/-- The dataset with the refined cameras, poses and points is accepted and has the same problem. Its initial values are
the solved ones, and they cost what the result says. -/
theorem refine_resumes :
    (∀ (cameras : List (Camera ℝ)) (images : List (Image ℝ)) (points : List (Vec3 ℝ)) (d : BundleDataset ℝ)
        (options : BundleOptions ℝ) (optimizer : Optimizer ℝ) (solver : SolveOptions ℝ) (r : BundleResult ℝ),
      BundleDataset.make cameras images points = .ok d → (∀ image ∈ d.images, image.pose.rot.norm = 1) →
      (∀ f, d.formulate options = .ok f → f.problem.CallsKeep optimizer f.initial solver Compiled.HoldsUnit) →
      d.refine optimizer options solver = .ok r →
      ∃ f s f', d.formulate options = .ok f ∧ f.problem.solve optimizer f.initial solver = .ok s ∧
        BundleDataset.make (d.replace r).cameras (d.replace r).images (d.replace r).points = .ok (d.replace r) ∧
        (d.replace r).formulate options = .ok f' ∧ f'.problem = f.problem ∧
        (∀ name, f'.initial.get? name = s.params.get? name) ∧ f'.problem.cost f'.initial = .ok r.finalCost) ∧
    ∀ (cameras : List (Camera ℝ)) (rigs : List (Rig ℝ)) (snapshots : List (Snapshot ℝ)) (points : List (Vec3 ℝ))
        (d : RigDataset ℝ) (options : RigOptions ℝ) (optimizer : Optimizer ℝ) (solver : SolveOptions ℝ)
        (r : RigResult ℝ),
      RigDataset.make cameras rigs snapshots points = .ok d → d.UnitRotations →
      (∀ f, d.formulate options = .ok f → f.problem.CallsKeep optimizer f.initial solver Compiled.HoldsUnit) →
      d.refine optimizer options solver = .ok r →
      ∃ f s f', d.formulate options = .ok f ∧ f.problem.solve optimizer f.initial solver = .ok s ∧
        RigDataset.make (d.replace r).cameras (d.replace r).rigs (d.replace r).snapshots (d.replace r).points =
          .ok (d.replace r) ∧
        (d.replace r).formulate options = .ok f' ∧ f'.problem = f.problem ∧
        (∀ name, f'.initial.get? name = s.params.get? name) ∧ f'.problem.cost f'.initial = .ok r.finalCost := by
  constructor
  · intro cameras images points d options optimizer solver r hd hunit hkeeps hr
    obtain ⟨-, hvalid⟩ := BundleDataset.make_eq_ok.1 hd
    obtain ⟨f, s, f', hf, hs, hcost, hvalid', hf', hresumed⟩ :=
      BundleDataset.resumed_of_refine hvalid hunit hkeeps hr
    exact ⟨f, s, f', hf, hs, BundleDataset.make_eq_ok.2 ⟨rfl, hvalid'⟩, hf', hresumed.problem, hresumed.initial,
      hcost ▸ hresumed.cost⟩
  · intro cameras rigs snapshots points d options optimizer solver r hd hunit hkeeps hr
    obtain ⟨-, hvalid⟩ := RigDataset.make_eq_ok.1 hd
    obtain ⟨f, s, f', hf, hs, hcost, hvalid', hf', hresumed⟩ := RigDataset.resumed_of_refine hvalid hunit hkeeps hr
    exact ⟨f, s, f', hf, hs, RigDataset.make_eq_ok.2 ⟨rfl, hvalid'⟩, hf', hresumed.problem, hresumed.initial,
      hcost ▸ hresumed.cost⟩

/-- The refined datasets have the new focal length, at which nothing is left to pay. -/
theorem refine_resumes_offAxis :
    (∃ r f', (BundleDataset.offAxis 2).refine (.refocus 1) .paired .default = .ok r ∧
      (BundleDataset.offAxis 2).replace r = .offAxis 1 ∧
      ((BundleDataset.offAxis 2).replace r).formulate .paired = .ok f' ∧
      f'.problem.cost f'.initial = .ok r.finalCost ∧ r.finalCost = 0) ∧
    ∃ r f', (RigDataset.offAxis 2).refine (.refocus 1) .paired .default = .ok r ∧
      (RigDataset.offAxis 2).replace r = .offAxis 1 ∧
      ((RigDataset.offAxis 2).replace r).formulate .paired = .ok f' ∧
      f'.problem.cost f'.initial = .ok r.finalCost ∧ r.finalCost = 0 := by
  obtain ⟨hbundle, hrig⟩ := refine_resumes
  constructor
  · obtain ⟨r, hr⟩ := BundleDataset.exists_refine_refocus one_pos
    have hreplaced := BundleDataset.replace_refocus hr
    obtain ⟨f, s, f', -, -, -, hf', -, -, hcost⟩ := hbundle _ _ _ (.offAxis 2) .paired (.refocus 1) .default r
      (BundleDataset.make_offAxis two_pos) BundleDataset.norm_offAxis
      (fun f hf => BundleDataset.callsKeep_refocus hf) hr
    have hzero := hcost.symm.trans (BundleDataset.cost_offAxis one_pos (hreplaced ▸ hf'))
    exact ⟨r, f', hr, hreplaced, hf', hcost, by simpa using hzero⟩
  · obtain ⟨r, hr⟩ := RigDataset.exists_refine_refocus one_pos
    have hreplaced := RigDataset.replace_refocus hr
    obtain ⟨f, s, f', -, -, -, hf', -, -, hcost⟩ := hrig _ _ _ _ (.offAxis 2) .paired (.refocus 1) .default r
      (RigDataset.make_offAxis two_pos) RigDataset.unitRotations_offAxis
      (fun f hf => RigDataset.callsKeep_refocus hf) hr
    have hzero := hcost.symm.trans (RigDataset.cost_offAxis one_pos (hreplaced ▸ hf'))
    exact ⟨r, f', hr, hreplaced, hf', hcost, by simpa using hzero⟩

/-- What the options hold constant comes back unchanged, whatever the number of runs. -/
theorem refine_constants :
    (∀ (cameras : List (Camera ℝ)) (images : List (Image ℝ)) (points : List (Vec3 ℝ)) (d : BundleDataset ℝ)
        (options : BundleOptions ℝ) (optimizer : Optimizer ℝ) (solver : SolveOptions ℝ) (r : BundleResult ℝ),
      BundleDataset.make cameras images points = .ok d →
      (∀ f, d.formulate options = .ok f → f.problem.CallsKeep optimizer f.initial solver Compiled.Holds) →
      d.refine optimizer options solver = .ok r → d.Constants options r) ∧
    ∀ (cameras : List (Camera ℝ)) (rigs : List (Rig ℝ)) (snapshots : List (Snapshot ℝ)) (points : List (Vec3 ℝ))
        (d : RigDataset ℝ) (options : RigOptions ℝ) (optimizer : Optimizer ℝ) (solver : SolveOptions ℝ)
        (r : RigResult ℝ),
      RigDataset.make cameras rigs snapshots points = .ok d → d.UnitRotations →
      (∀ f, d.formulate options = .ok f → f.problem.CallsKeep optimizer f.initial solver Compiled.Holds) →
      d.refine optimizer options solver = .ok r → d.Constants options r := by
  constructor
  · intro cameras images points d options optimizer solver r hd hkeeps hr
    exact BundleDataset.constants_of_refine (BundleDataset.make_eq_ok.1 hd).2 hkeeps hr
  · intro cameras rigs snapshots points d options optimizer solver r hd hunit hkeeps hr
    exact RigDataset.constants_of_refine (RigDataset.make_eq_ok.1 hd).2 hunit hkeeps hr

/-- The first pose, the first point, the principal point and the second camera's pose on the rig stay where they are,
while the focal length moves. -/
theorem refine_constants_offAxis :
    (∃ (r : BundleResult ℝ) (c : Camera ℝ), (BundleDataset.offAxis 2).refine (.refocus 1) .paired .default = .ok r ∧
      r.poses[0]? = some .one ∧ r.points[0]? = some ⟨1, 0, 1⟩ ∧ r.cameras[0]? = some c ∧ c.params[0]? = some 1 ∧
      c.params[1]? = some 0 ∧ c.params[2]? = some 0) ∧
    ∃ (r : RigResult ℝ) (c : Camera ℝ) (poses : List (Pose ℝ)),
      (RigDataset.offAxis 2).refine (.refocus 1) .paired .default = .ok r ∧ r.rigPoses[0]? = some .one ∧
      r.relativePoses[0]? = some poses ∧ poses[1]? = some .one ∧ r.points[0]? = some ⟨1, 0, 1⟩ ∧
      r.cameras[0]? = some c ∧ c.params[0]? = some 1 ∧ c.params[1]? = some 0 ∧ c.params[2]? = some 0 := by
  obtain ⟨hbundle, hrig⟩ := refine_constants
  have hprincipal : ∀ j ∈ [1, 2], Refinement.default.LeavesOut .simplePinhole j := fun j hj => .inr (.inl ⟨rfl, hj⟩)
  constructor
  · obtain ⟨r, hr⟩ := BundleDataset.exists_refine_refocus one_pos
    have hconstants := hbundle _ _ _ (.offAxis 2) .paired (.refocus 1) .default r
      (BundleDataset.make_offAxis two_pos)
      (fun f hf => (BundleDataset.callsKeep_refocus hf).imp fun _ _ _ _ h => h.toHolds) hr
    obtain ⟨c, hc, -, hparams⟩ := hconstants.intrinsics 0 _ rfl
    have hfocal : c.params[0]? = some 1 := by
      have hcameras : r.cameras = (BundleDataset.offAxis 1).cameras :=
        congrArg BundleDataset.cameras (BundleDataset.replace_refocus hr)
      rw [hcameras] at hc
      exact Option.some.inj hc ▸ rfl
    exact ⟨r, c, hr, hconstants.poses 0 _ rfl List.mem_cons_self, hconstants.points 0 _ rfl List.mem_cons_self, hc,
      hfocal, hparams 1 (hprincipal 1 (by simp)), hparams 2 (hprincipal 2 (by simp))⟩
  · obtain ⟨r, hr⟩ := RigDataset.exists_refine_refocus one_pos
    have hconstants := hrig _ _ _ _ (.offAxis 2) .paired (.refocus 1) .default r
      (RigDataset.make_offAxis two_pos) RigDataset.unitRotations_offAxis
      (fun f hf => (RigDataset.callsKeep_refocus hf).imp fun _ _ _ _ h => h.toHolds) hr
    obtain ⟨c, hc, -, hparams⟩ := hconstants.intrinsics 0 _ rfl
    obtain ⟨poses, hposes, hpose⟩ := hconstants.relativePoses 0 1 _ _ rfl rfl (.inr rfl)
    have hfocal : c.params[0]? = some 1 := by
      have hcameras : r.cameras = (RigDataset.offAxis 1).cameras :=
        congrArg RigDataset.cameras (RigDataset.replace_refocus hr)
      rw [hcameras] at hc
      exact Option.some.inj hc ▸ rfl
    exact ⟨r, c, poses, hr, hconstants.rigPoses 0 _ rfl List.mem_cons_self, hposes, hpose,
      hconstants.points 0 _ rfl List.mem_cons_self, hc, hfocal, hparams 1 (hprincipal 1 (by simp)),
      hparams 2 (hprincipal 2 (by simp))⟩

end MultiView
