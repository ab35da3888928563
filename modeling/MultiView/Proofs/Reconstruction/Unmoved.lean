import Mathlib
import MultiView.Proofs.Bundle.Residuals
import MultiView.Proofs.Camera.Undistort
import MultiView.Proofs.PoseBlocks
import MultiView.Proofs.Problem.Cost
import MultiView.Proofs.Reconstruction.Gauge

/-!
# Refining without moving

An optimizer that changes no value leaves a dataset at its initial values, and the result reports their cost and their
mean residual. What the result holds is not quite where these were taken: a rotation is read back at unit length, and
the residuals are those of the quaternion as it is. For unit rotations the reports are those of the refined dataset
(`refine_unmoved`); a longer one comes back with reports of a reconstruction that is not returned
(`BundleDataset.refine_unmoved_stretched`).
-/

namespace MultiView

/-! ## Reports -/

/-- Do the residuals at the initial values have this cost and this mean length? -/
structure Formulation.Reports (f : Formulation ℝ) (cost meanError : ℝ) : Prop where
  cost : f.problem.cost f.initial = .ok cost
  meanError : f.problem.meanError f.initial = .ok meanError

/-- Residuals are seen through the values of a problem's blocks. -/
theorem Formulation.Reports.congr {f f' : Formulation ℝ} {cost meanError : ℝ} (h : f.Reports cost meanError)
    (hproblem : f'.problem = f.problem) (hinitial : ∀ name, f'.initial.get? name = f.initial.get? name) :
    f'.Reports cost meanError := by
  have hevaluate : f'.problem.evaluate f'.initial = f.problem.evaluate f.initial := by
    rw [hproblem]
    exact Problem.evaluate_congr fun b _ => hinitial b.name
  constructor
  · rw [Problem.cost, hevaluate]
    exact h.cost
  · rw [Problem.meanError, hevaluate]
    exact h.meanError

theorem Values.Normalizes.congr {w v v' : Values ℝ} {p : Problem ℝ} (h : w.Normalizes p v)
    (hvalues : ∀ name, v.get? name = v'.get? name) : w.Normalizes p v' where
  rotation b hb hso3 := by
    obtain ⟨q, hq, hnormalized⟩ := h.rotation b hb hso3
    exact ⟨q, (hvalues b.name).symm.trans hq, hnormalized⟩
  other name hother := (h.other name hother).trans (hvalues name)

/-- What a refinement reports that moved nothing, and the problem of its result: that of the dataset, whose rotations
are now of unit length. If they were before, the reports are those of the result. -/
structure Formulation.Unmoved (f f' : Formulation ℝ) (cost meanError : ℝ) : Prop where
  problem : f'.problem = f.problem
  initial : f'.initial.Normalizes f.problem f.initial
  reports : f.Reports cost meanError
  result : f.initial.UnitRotations f.problem → f'.Reports cost meanError

/-- A problem rebuilt from solved values that are the initial ones. -/
theorem Formulation.Rebuilt.unmoved {f f' : Formulation ℝ} {s : Solution ℝ} (h : f.Rebuilt s f')
    (hstays : ∀ name, s.params.get? name = f.initial.get? name) {cost meanError : ℝ}
    (hcost : f.problem.cost s.params = .ok cost) (hmean : f.problem.meanError s.params = .ok meanError) :
    f.Unmoved f' cost meanError := by
  have hsolution : Formulation.Reports ⟨f.problem, s.params⟩ cost meanError := ⟨hcost, hmean⟩
  have hreports : f.Reports cost meanError := hsolution.congr rfl fun name => (hstays name).symm
  have hinitial := h.initial.congr hstays
  exact ⟨h.problem, hinitial, hreports, fun hunit => hreports.congr h.problem (hinitial.get?_eq hunit)⟩

/-! ## Datasets -/

/-- The result of a refinement that moves nothing. -/
theorem BundleDataset.unmoved_of_refine {d : BundleDataset ℝ} (hd : d.Valid) {options : BundleOptions ℝ}
    {optimizer : Optimizer ℝ} {solver : SolveOptions ℝ} {r : BundleResult ℝ}
    (hkeeps : ∀ f, d.formulate options = .ok f →
      f.problem.CallsKeep optimizer f.initial solver fun _ _ before after => after = before)
    (hr : d.refine optimizer options solver = .ok r) :
    ∃ f f', d.formulate options = .ok f ∧ (d.replace r).Valid ∧ (d.replace r).formulate options = .ok f' ∧
      f.Unmoved f' r.finalCost r.meanError := by
  obtain ⟨f, s, f', hf, hs, hrefined, hvalid, hf', hrebuilt⟩ :=
    rebuilt_of_refine hd (fun f hf => (hkeeps f hf).imp fun _ _ _ _ h => congrArg List.length h) hr
  have hstays : ∀ name, s.params.get? name = f.initial.get? name := by
    have hunmoved := hkeeps f hf
    obtain ⟨-, rfl⟩ := (formulate_eq_ok hd).1 hf
    exact Measurement.params_of_solve_unmoved hunmoved hs
  have hcost := hrefined.finalCost ▸ Problem.cost_of_solve hs
  exact ⟨f, f', hf, hvalid, hf', hrebuilt.unmoved hstays hcost hrefined.meanError⟩

/-- The result of a refinement that moves nothing. -/
theorem RigDataset.unmoved_of_refine {d : RigDataset ℝ} (hd : d.Valid) {options : RigOptions ℝ}
    {optimizer : Optimizer ℝ} {solver : SolveOptions ℝ} {r : RigResult ℝ}
    (hkeeps : ∀ f, d.formulate options = .ok f →
      f.problem.CallsKeep optimizer f.initial solver fun _ _ before after => after = before)
    (hr : d.refine optimizer options solver = .ok r) :
    ∃ f f', d.formulate options = .ok f ∧ (d.replace r).Valid ∧ (d.replace r).formulate options = .ok f' ∧
      f.Unmoved f' r.finalCost r.meanError := by
  obtain ⟨f, s, f', hf, hs, hrefined, hvalid, hf', hrebuilt⟩ :=
    rebuilt_of_refine hd (fun f hf => (hkeeps f hf).imp fun _ _ _ _ h => congrArg List.length h) hr
  have hstays : ∀ name, s.params.get? name = f.initial.get? name := by
    have hunmoved := hkeeps f hf
    obtain ⟨-, rfl⟩ := (formulate_eq_ok hd).1 hf
    exact Measurement.params_of_solve_unmoved hunmoved hs
  have hcost := hrefined.finalCost ▸ Problem.cost_of_solve hs
  exact ⟨f, f', hf, hvalid, hf', hrebuilt.unmoved hstays hcost hrefined.meanError⟩

/-- With an optimizer that changes no value, the reports of a result are the cost and the mean residual of the dataset.
The dataset with the refined cameras, poses and points is accepted and has the same problem, from the same initial
values with rotations of unit length. Where these had unit length already, the reports are its cost and its mean
residual. -/
theorem refine_unmoved (optimizer : Optimizer ℝ) (solver : SolveOptions ℝ) :
    (∀ (cameras : List (Camera ℝ)) (images : List (Image ℝ)) (points : List (Vec3 ℝ)) (d : BundleDataset ℝ)
        (options : BundleOptions ℝ) (r : BundleResult ℝ),
      BundleDataset.make cameras images points = .ok d →
      (∀ f, d.formulate options = .ok f →
        f.problem.CallsKeep optimizer f.initial solver fun _ _ before after => after = before) →
      d.refine optimizer options solver = .ok r →
      ∃ f f', d.formulate options = .ok f ∧
        BundleDataset.make (d.replace r).cameras (d.replace r).images (d.replace r).points = .ok (d.replace r) ∧
        (d.replace r).formulate options = .ok f' ∧ f.Unmoved f' r.finalCost r.meanError) ∧
    ∀ (cameras : List (Camera ℝ)) (rigs : List (Rig ℝ)) (snapshots : List (Snapshot ℝ)) (points : List (Vec3 ℝ))
        (d : RigDataset ℝ) (options : RigOptions ℝ) (r : RigResult ℝ),
      RigDataset.make cameras rigs snapshots points = .ok d →
      (∀ f, d.formulate options = .ok f →
        f.problem.CallsKeep optimizer f.initial solver fun _ _ before after => after = before) →
      d.refine optimizer options solver = .ok r →
      ∃ f f', d.formulate options = .ok f ∧
        RigDataset.make (d.replace r).cameras (d.replace r).rigs (d.replace r).snapshots (d.replace r).points =
          .ok (d.replace r) ∧
        (d.replace r).formulate options = .ok f' ∧ f.Unmoved f' r.finalCost r.meanError := by
  constructor
  · intro cameras images points d options r hd hkeeps hr
    obtain ⟨-, hvalid⟩ := BundleDataset.make_eq_ok.1 hd
    obtain ⟨f, f', hf, hvalid', hf', hunmoved⟩ := BundleDataset.unmoved_of_refine hvalid hkeeps hr
    exact ⟨f, f', hf, BundleDataset.make_eq_ok.2 ⟨rfl, hvalid'⟩, hf', hunmoved⟩
  · intro cameras rigs snapshots points d options r hd hkeeps hr
    obtain ⟨-, hvalid⟩ := RigDataset.make_eq_ok.1 hd
    obtain ⟨f, f', hf, hvalid', hf', hunmoved⟩ := RigDataset.unmoved_of_refine hvalid hkeeps hr
    exact ⟨f, f', hf, RigDataset.make_eq_ok.2 ⟨rfl, hvalid'⟩, hf', hunmoved⟩

/-- Rotations of unit length, by which the reports are those of the results. -/
theorem refine_unmoved_offAxis :
    (∃ r f', (BundleDataset.offAxis 2).refine .still .held .default = .ok r ∧
      ((BundleDataset.offAxis 2).replace r).formulate .held = .ok f' ∧ f'.Reports r.finalCost r.meanError) ∧
    ∃ r f', (RigDataset.offAxis 2).refine .still .held .default = .ok r ∧
      ((RigDataset.offAxis 2).replace r).formulate .held = .ok f' ∧ f'.Reports r.finalCost r.meanError := by
  obtain ⟨hbundle, hrig⟩ := refine_unmoved .still .default
  constructor
  · obtain ⟨r, hr⟩ : ∃ r, (BundleDataset.offAxis 2).refine .still .held .default = .ok r :=
      BundleDataset.exists_refine_still (BundleDataset.valid_offAxis two_pos) (.inl rfl)
        ⟨_, List.mem_of_getElem? (i := 0) rfl, rfl⟩
        (fun image himage => Quat.isDirection_of_norm (BundleDataset.norm_offAxis image himage)) .default
    obtain ⟨f, f', hf, -, hf', hunmoved⟩ := hbundle _ _ _ (.offAxis 2) .held r
      (BundleDataset.make_offAxis two_pos) (fun f _ => Problem.callsKeep_still fun _ _ _ => rfl) hr
    obtain ⟨-, hunit⟩ :=
      BundleDataset.initial_unitRotations (BundleDataset.valid_offAxis two_pos) BundleDataset.norm_offAxis hf
    exact ⟨r, f', hr, hf', hunmoved.result hunit⟩
  · have hunit : (RigDataset.offAxis 2).UnitRotations := RigDataset.unitRotations_offAxis
    obtain ⟨r, hr⟩ : ∃ r, (RigDataset.offAxis 2).refine .still .held .default = .ok r :=
      RigDataset.exists_refine_still (RigDataset.valid_offAxis two_pos) (.inl rfl)
        ⟨_, List.mem_of_getElem? (i := 0) rfl, rfl⟩
        (fun rig hrig m hm => Quat.isDirection_of_norm (hunit.mounted rig hrig m hm))
        (fun snapshot hsnapshot => Quat.isDirection_of_norm (hunit.snapshots snapshot hsnapshot)) .default
    obtain ⟨f, f', hf, -, hf', hunmoved⟩ := hrig _ _ _ _ (.offAxis 2) .held r
      (RigDataset.make_offAxis two_pos) (fun f _ => Problem.callsKeep_still fun _ _ _ => rfl) hr
    obtain ⟨-, hinitial⟩ := RigDataset.initial_unitRotations (RigDataset.valid_offAxis two_pos) hunit hf
    exact ⟨r, f', hr, hf', hunmoved.result hinitial⟩

/-! ## A rotation that is too long -/

/-- The reports of initial values whose residuals are known. -/
theorem Formulation.Measures.reports {outcome : Except (RefineError ℝ) (Formulation ℝ)} {rs : List (List ℝ)}
    (h : Formulation.Measures outcome rs) {f : Formulation ℝ} (hf : outcome = .ok f) :
    f.Reports (totalCost rs) (meanNorm rs) := by
  refine ⟨h.cost hf, ?_⟩
  rw [Problem.meanError, h.evaluate f hf]
  rfl

/-- Everything may move; every observation counts. -/
def BundleOptions.free {α : Type} : BundleOptions α := ⟨.none, .default, [], [], 1⟩

namespace BundleDataset

/-- What is read back of values that are the dataset's: all as it was, but for the rotations that were solved. -/
theorem Refined.of_stays {α : Type} [Scalar α] {d : BundleDataset α} {options : BundleOptions α} {p : Problem α}
    {s : Solution α} {r : BundleResult α} (h : d.Refined options p s r)
    (hstays : ∀ k, d.Uses options k → s.params.block? k = some (d.blockSpec options k).value) :
    r.cameras = d.cameras ∧ r.points = d.points ∧ ∀ i image, d.images[i]? = some image →
      d.Uses options (.rotation i) → r.poses[i]? = some ⟨image.pose.rot.normalize, image.pose.trans⟩ := by
  refine ⟨eq_of_zipIdx h.cameras fun i c c' hc hread => hread.eq_of_stays fun hused => ?_,
    eq_of_zipIdx h.points fun i x x' hx hread => hread.eq_of_stays fun hused => ?_, fun i image himage hused => ?_⟩
  · have hcamera := hstays (.camera i) hused
    rwa [blockSpec_camera hc] at hcamera
  · have hpoint := hstays (.point i) hused
    rwa [blockSpec_point hx] at hpoint
  · obtain ⟨pose, hpose, hread⟩ := exists_getElem?_of_zipIdx h.poses himage
    have hrotation := hstays (.rotation i) hused
    have htrans := hstays (.trans i) hused
    rw [blockSpec_rotation himage] at hrotation
    rw [blockSpec_trans himage] at htrans
    rw [hpose, hread.eq_of_stays hused hrotation htrans]

/-- A point beside the axis, and a camera at the origin that sees it seven pixels to the left. -/
noncomputable def leftward (rot : Quat ℝ) : BundleDataset ℝ where
  cameras := [⟨.simplePinhole, [1, 0, 0]⟩]
  images := [⟨0, ⟨rot, .zero⟩, [⟨0, ⟨-7, 0⟩⟩]⟩]
  points := [⟨1, 0, 1⟩]

variable {rot : Quat ℝ}

theorem valid_leftward : (leftward rot).Valid where
  images := List.cons_ne_nil _ _
  cameras := by simp [leftward, Camera.valid_offAxis]
  camera := by simp [leftward]
  point := by simp [leftward]

/-- The camera comes back turned by a unit quaternion. -/
theorem exists_refine_leftward (hrot : rot.IsDirection) : ∃ r, (leftward rot).refine .still .free .default = .ok r ∧
    (leftward rot).replace r = leftward rot.normalize := by
  have himages : ∀ image ∈ (leftward rot).images, image.pose.rot.IsDirection := fun image himage => by
    obtain rfl := List.mem_singleton.1 himage
    exact hrot
  obtain ⟨r, hr⟩ : ∃ r, (leftward rot).refine .still .free .default = .ok r :=
    exists_refine_still valid_leftward (.inl rfl) ⟨_, List.mem_of_getElem? (i := 0) rfl, rfl⟩ himages .default
  obtain ⟨f, s, hf, hs, hrefined⟩ :=
    refined_of_refine valid_leftward (fun f _ => Problem.callsKeep_still fun _ _ _ => rfl) hr
  have hstays : ∀ k, (leftward rot).Uses .free k →
      s.params.block? k = some ((leftward rot).blockSpec .free k).value := fun k hk => by
    obtain ⟨-, rfl⟩ := (formulate_eq_ok valid_leftward).1 hf
    exact Measurement.block?_of_solve_still hs (mem_keys_iff_uses.2 hk)
  obtain ⟨hcameras, hpoints, hposes⟩ := hrefined.of_stays hstays
  have hpose : r.poses[0]? = some ⟨rot.normalize, .zero⟩ :=
    hposes 0 _ rfl ⟨_, List.mem_of_getElem? (i := 0) rfl, rfl, List.not_mem_nil⟩
  obtain ⟨pose, hsingle⟩ := List.length_eq_one_iff.1 (length_eq_of_zipIdx hrefined.poses)
  rw [hsingle] at hpose
  obtain rfl := Option.some.inj hpose
  refine ⟨r, hr, ?_⟩
  rw [replace, hcameras, hpoints, hsingle]
  rfl

/-- The one residual is that of the quaternion as it is. -/
theorem residuals_leftward : (leftward rot).residuals 1 =
    [(Factor.reprojectionError ⟨1, 1, 0, 0, .none⟩ ((⟨rot, .zero⟩ : Pose ℝ).apply ⟨1, 0, 1⟩) ⟨-7, 0⟩).toList] := rfl

/-- Half a turn about the axis, by a quaternion of a length. -/
noncomputable def halfTurn (length : ℝ) : Quat ℝ := ⟨0, 0, length, 0⟩

theorem normalize_halfTurn {length : ℝ} (h : 0 < length) : (halfTurn length).normalize = halfTurn 1 := by
  have hscale : halfTurn length = (halfTurn 1).scale length := by simp [halfTurn, Quat.scale]
  have hunit : (halfTurn 1).norm = 1 := Quat.norm_eq_one.2 (by norm_num [halfTurn, Quat.normSq])
  rw [hscale, Quat.normalize_scale _ h, Quat.normalize_of_norm hunit]

/-- The residual is quadratic in the length, and zero at length two. -/
theorem reports_leftward {length : ℝ} {f : Formulation ℝ} (hf : (leftward (halfTurn length)).formulate .free = .ok f) :
    f.Reports ((8 - 2 * length ^ 2) ^ 2 / 2) |8 - 2 * length ^ 2| := by
  have hturned : (⟨halfTurn length, .zero⟩ : Pose ℝ).apply ⟨1, 0, 1⟩ = ⟨1 - 2 * length ^ 2, 0, 1⟩ := by
    apply Vec3.ext <;>
      simp [halfTurn, Pose.apply, Quat.rotate, Quat.im, Vec3.cross, Vec3.scale, Vec3.zero, Scalar.two]
    ring
  have hresidual : (leftward (halfTurn length)).residuals 1 = [[8 - 2 * length ^ 2, 0]] := by
    rw [residuals_leftward, hturned]
    simp [Factor.reprojectionError, Vec3.perspective, Lens.project, Distortion.offset, Vec2.toList]
    ring
  have hreports := (measures valid_leftward).reports hf
  have hnormSq : normSq [8 - 2 * length ^ 2, 0] = (8 - 2 * length ^ 2) ^ 2 := by
    simp [normSq, Scalar.sum, sq]
  have hcost : totalCost [[8 - 2 * length ^ 2, 0]] = (8 - 2 * length ^ 2) ^ 2 / 2 := by
    rw [totalCost_eq, List.map_singleton, List.sum_singleton, hnormSq]
  have hmean : meanNorm [[8 - 2 * length ^ 2, 0]] = |8 - 2 * length ^ 2| := by
    rw [← Real.sqrt_sq_eq_abs, ← hnormSq]
    simp [meanNorm, Scalar.sum, Scalar.ofNat, Scalar.decimal]
    rfl
  rw [← hcost, ← hmean, ← hresidual]
  exact hreports

/-- A quaternion of length two comes back at length one, with the reports of length two. -/
theorem refine_unmoved_stretched : ∃ r f',
    make (leftward (halfTurn 2)).cameras (leftward (halfTurn 2)).images (leftward (halfTurn 2)).points =
      .ok (leftward (halfTurn 2)) ∧
    (leftward (halfTurn 2)).refine .still .free .default = .ok r ∧
    ((leftward (halfTurn 2)).replace r).formulate .free = .ok f' ∧ r.finalCost = 0 ∧ r.meanError = 0 ∧
    f'.Reports 18 6 := by
  have hdirection : (halfTurn 2).IsDirection :=
    Quat.isDirection_iff_ne_zero.2 fun h => two_ne_zero (congrArg Quat.z h)
  obtain ⟨r, hr, hreplaced⟩ := exists_refine_leftward hdirection
  rw [normalize_halfTurn two_pos] at hreplaced
  obtain ⟨f, f', hf, -, hf', hunmoved⟩ :=
    unmoved_of_refine valid_leftward (fun f _ => Problem.callsKeep_still fun _ _ _ => rfl) hr
  have hbefore := reports_leftward hf
  rw [hreplaced] at hf'
  have hafter := reports_leftward hf'
  have hcost : r.finalCost = (8 - 2 * 2 ^ 2) ^ 2 / 2 :=
    Except.ok.inj (hunmoved.reports.cost.symm.trans hbefore.cost)
  have hmean : r.meanError = |8 - 2 * 2 ^ 2| :=
    Except.ok.inj (hunmoved.reports.meanError.symm.trans hbefore.meanError)
  refine ⟨r, f', make_eq_ok.2 ⟨rfl, valid_leftward⟩, hr, hreplaced ▸ hf', hcost.trans ?_, hmean.trans ?_, ?_⟩
  · norm_num
  · norm_num
  · convert hafter using 1 <;> norm_num

end BundleDataset

end MultiView
