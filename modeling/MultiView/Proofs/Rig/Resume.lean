import MultiView.Proofs.Rig.Refine
import MultiView.Proofs.Reconstruction.Held

/-!
# Rig adjustment again

A dataset whose cameras, poses and points are replaced by the refined ones (`RigDataset.replace`) is valid and has the
same problem (`RigDataset.rebuilt_of_refine`). In exact arithmetic, and for rotations of norm one, it starts from the
solved values (`RigDataset.resumed_of_refine`), and what the options hold constant comes back unchanged
(`RigDataset.constants_of_refine`), if the optimizer holds constant what is registered so.
-/

namespace MultiView

open Measurement

namespace RigDataset

section Replace

variable {α : Type} [Scalar α] {d : RigDataset α} {options : RigOptions α} {i j : Nat}

/-! ## Replacing -/

/-- The dataset with refined cameras, poses and points. -/
def replace (d : RigDataset α) (r : RigResult α) : RigDataset α where
  cameras := r.cameras
  rigs := List.zipWith (fun rig poses => ⟨List.zipWith (fun m pose => { m with pose }) rig.cameras poses⟩) d.rigs
    r.relativePoses
  snapshots := List.zipWith (fun snapshot pose => { snapshot with pose }) d.snapshots r.rigPoses
  points := r.points

variable {p : Problem α} {s : Solution α} {r : RigResult α} (h : d.Refined options p s r)

include h in
/-- A rig, and the rig with the refined poses of its cameras. -/
theorem Refined.exists_replaced_rig {rig : Rig α} (hrig : d.rigs[i]? = some rig) :
    ∃ rig', (d.replace r).rigs[i]? = some rig' ∧ rig'.cameras.length = rig.cameras.length ∧
      ∀ j m, rig.cameras[j]? = some m → ∃ pose, rig'.cameras[j]? = some { m with pose } ∧
        Pose.Refined s.params s!"rel_rot/{i}/{j}" s!"rel_trans/{i}/{j}" (d.Uses options (.relRotation i j)) m.pose
          pose := by
  obtain ⟨poses, hposes, hread⟩ := exists_getElem?_of_zipIdx h.relativePoses hrig
  refine ⟨⟨List.zipWith (fun m pose => { m with pose }) rig.cameras poses⟩, ?_, ?_, fun j m hm => ?_⟩
  · simp only [replace, List.getElem?_zipWith, hrig, hposes]
  · rw [List.length_zipWith, length_eq_of_zipIdx hread, Nat.min_self]
  · obtain ⟨pose, hpose, hrefined⟩ := exists_getElem?_of_zipIdx hread hm
    refine ⟨pose, ?_, hrefined⟩
    simp only [List.getElem?_zipWith, hm, hpose]

include h in
theorem Refined.cameraAt_replace (i j : Nat) : (d.replace r).cameraAt i j = d.cameraAt i j := by
  cases hrig : d.rigs[i]? with
  | none =>
    have hrig' : (d.replace r).rigs[i]? = none := by simp only [replace, List.getElem?_zipWith, hrig]
    simp [cameraAt, mounted?, hrig, hrig']
  | some rig =>
    obtain ⟨rig', hrig', hlength, hmounted⟩ := h.exists_replaced_rig hrig
    cases hm : rig.cameras[j]? with
    | none =>
      have hm' : rig'.cameras[j]? = none := by
        rw [List.getElem?_eq_none_iff] at hm ⊢
        rwa [hlength]
      simp [cameraAt, mounted?, hrig, hrig', hm, hm']
    | some m =>
      obtain ⟨pose, hm', -⟩ := hmounted j m hm
      rw [cameraAt_eq (mounted?_eq hrig hm), cameraAt_eq (mounted?_eq hrig' hm')]

include h in
theorem Refined.trackLengths_replace : (d.replace r).trackLengths = d.trackLengths := by
  have hobservations : (d.replace r).observations = d.observations := by
    rw [observations, observations, List.flatMap_def, List.flatMap_def]
    exact congrArg List.flatten (map_zipWith_of_forall (length_eq_of_zipIdx h.rigPoses) fun _ _ => rfl)
  rw [trackLengths, trackLengths, hobservations, replace, length_eq_of_zipIdx h.points]

include h in
theorem Refined.usableObservations_replace :
    (d.replace r).usableObservations options = d.usableObservations options := by
  funext image
  rw [usableObservations, usableObservations, h.trackLengths_replace]

include h in
theorem Refined.usableImages_replace (snapshot : Snapshot α) (pose : Pose α) :
    (d.replace r).usableImages options { snapshot with pose } = d.usableImages options snapshot := by
  rw [usableImages, usableImages, h.trackLengths_replace]

include h in
/-- The measurements are those from before: they hold no poses. -/
theorem Refined.measurements_replace : (d.replace r).measurements options = d.measurements options := by
  rw [measurements, measurements, List.flatMap_def, List.flatMap_def]
  refine congrArg List.flatten (map_zipIdx_zipWith (length_eq_of_zipIdx h.rigPoses) fun i snapshot pose _ _ => ?_)
  have hmodel := Camera.modelAt_congr (h.cameras.imp fun _ _ hread => hread.model)
  have himage : (d.replace r).imageMeasurements options i { snapshot with pose } =
      d.imageMeasurements options i snapshot := by
    funext image
    rw [imageMeasurements, imageMeasurements, h.usableObservations_replace]
    refine List.map_congr_left fun o _ => ?_
    simp only [measurement, h.cameraAt_replace]
    rw [replace, hmodel]
  simp only [snapshotMeasurements, h.usableImages_replace, himage]

include h in
theorem Refined.keys_replace : (d.replace r).keys options = d.keys options := by
  rw [keys, keys, List.flatMap_def, List.flatMap_def]
  refine congrArg (fun new => addKeys [] (List.flatten new))
    (map_zipIdx_zipWith (length_eq_of_zipIdx h.rigPoses) fun i snapshot pose _ _ => ?_)
  have himage : (d.replace r).imageKeys options { snapshot with pose } = d.imageKeys options snapshot := by
    funext image
    simp only [imageKeys, h.cameraAt_replace, h.usableObservations_replace]
  simp only [snapshotKeys, h.usableImages_replace, himage]

include h in
/-- The refined dataset is valid. -/
theorem Refined.valid_replace (hd : d.Valid) : (d.replace r).Valid := by
  -- a dataset is valid by the numbers of its cameras, rigs and points, and these are as they were
  have hcameras : (d.replace r).cameras.length = d.cameras.length := length_eq_of_zipIdx h.cameras
  have hpoints : (d.replace r).points.length = d.points.length := length_eq_of_zipIdx h.points
  have hposes : r.rigPoses.length = d.snapshots.length := length_eq_of_zipIdx h.rigPoses
  have hrigs : (d.replace r).rigs.length = d.rigs.length := by
    rw [replace, List.length_zipWith, length_eq_of_zipIdx h.relativePoses, Nat.min_self]
  constructor
  case snapshots =>
    have hne := List.length_pos_iff.2 hd.snapshots
    rw [← List.length_pos_iff, replace, List.length_zipWith]
    omega
  case cameras => exact fun c hc => Camera.validate_eq_ok.1 (h.valid c hc)
  case mounted =>
    intro rig' hrig'
    obtain ⟨i, hi⟩ := List.mem_iff_getElem?.1 hrig'
    obtain ⟨rig, hrig⟩ : ∃ rig, d.rigs[i]? = some rig :=
      ⟨_, List.getElem?_eq_getElem (hrigs ▸ (List.getElem?_eq_some_iff.1 hi).1)⟩
    obtain ⟨rig'', hrig'', hlength, hmounts⟩ := h.exists_replaced_rig hrig
    obtain rfl := Option.some.inj (hi.symm.trans hrig'')
    obtain ⟨hne, hmounted⟩ := hd.mounted _ (List.mem_of_getElem? hrig)
    refine ⟨?_, fun c hc => ?_⟩
    · rw [← List.length_pos_iff, hlength]
      exact List.length_pos_iff.2 hne
    · obtain ⟨j, hj⟩ := List.mem_iff_getElem?.1 hc
      obtain ⟨m, hm⟩ : ∃ m, rig.cameras[j]? = some m :=
        ⟨_, List.getElem?_eq_getElem (hlength ▸ (List.getElem?_eq_some_iff.1 hj).1)⟩
      obtain ⟨pose, hpose, -⟩ := hmounts j m hm
      obtain rfl := Option.some.inj (hj.symm.trans hpose)
      rw [hcameras]
      exact hmounted m (List.mem_of_getElem? hm)
  case images =>
    intro snapshot' hsnapshot'
    obtain ⟨snapshot, hsnapshot, pose, -, rfl⟩ := exists_of_mem_zipWith hsnapshot'
    obtain ⟨rig, hrig, himages⟩ := hd.images snapshot hsnapshot
    obtain ⟨rig', hrig', hlength, -⟩ := h.exists_replaced_rig hrig
    refine ⟨rig', hrig', fun image himage => ⟨?_, fun o ho => ?_⟩⟩
    · rw [hlength]
      exact (himages image himage).mount
    · rw [hpoints]
      exact (himages image himage).point o ho

include h in
/-- A snapshot whose rig pose is solved, and the snapshot with the refined rig pose. -/
theorem Refined.exists_replaced_snapshot (hused : d.Uses options (.rigRotation i)) :
    ∃ snapshot pose, d.snapshots[i]? = some snapshot ∧ (d.replace r).snapshots[i]? = some { snapshot with pose } ∧
      Pose.Refined s.params s!"rig_rot/{i}" s!"rig_trans/{i}" (d.Uses options (.rigRotation i)) snapshot.pose pose := by
  obtain ⟨snapshot, hsnapshot⟩ := exists_snapshot_of_uses hused
  obtain ⟨pose, hpose, hread⟩ := exists_getElem?_of_zipIdx h.rigPoses hsnapshot
  refine ⟨snapshot, pose, hsnapshot, ?_, hread⟩
  simp only [replace, List.getElem?_zipWith, hsnapshot, hpose]

include h in
/-- A camera on a rig whose pose is solved, and the camera with the refined pose. -/
theorem Refined.exists_replaced_mounted (hd : d.Valid) (hused : d.Uses options (.relRotation i j)) :
    ∃ m pose, d.mounted? i j = some m ∧ (d.replace r).mounted? i j = some { m with pose } ∧
      Pose.Refined s.params s!"rel_rot/{i}/{j}" s!"rel_trans/{i}/{j}" (d.Uses options (.relRotation i j)) m.pose
        pose := by
  obtain ⟨rig, m, hrig, hm⟩ := exists_mounted_of_uses hd hused
  obtain ⟨rig', hrig', -, hmounts⟩ := h.exists_replaced_rig hrig
  obtain ⟨pose, hm', hread⟩ := hmounts j m hm
  exact ⟨m, pose, mounted?_eq hrig hm, mounted?_eq hrig' hm', hread⟩

include h in
/-- The refined dataset has the contents of its blocks from the solved values. -/
theorem Refined.blockSpec_replace (hd : d.Valid) {k : RigKey} (hk : d.Uses options k) :
    ((d.replace r).blockSpec options k).ReadBack (d.blockSpec options k) (s.params.block? k) := by
  cases k with
  | camera i =>
    obtain ⟨c, hc⟩ := exists_camera_of_uses hd hk
    obtain ⟨c', hc', hread⟩ := exists_getElem?_of_zipIdx h.cameras hc
    have hvalid := hd.cameras c (List.mem_of_getElem? hc)
    have hvalid' := Camera.validate_eq_ok.1 (h.valid c' (List.mem_of_getElem? hc'))
    rw [blockSpec_camera hc, blockSpec_camera (d := d.replace r) hc']
    exact ⟨BlockSpec.replaces_camera hvalid hvalid' hread.model options.refine, nofun, fun _ => hread.solved hk⟩
  | rigRotation i =>
    obtain ⟨snapshot, pose, hsnapshot, hsnapshot', hread⟩ := h.exists_replaced_snapshot hk
    obtain ⟨q, hq, hrotation, -⟩ := hread.solved hk
    rw [blockSpec_rigRotation hsnapshot, blockSpec_rigRotation hsnapshot']
    exact ⟨⟨rfl, rfl, rfl⟩, fun _ => ⟨q, hq, congrArg Quat.toList hrotation⟩, fun hne => absurd rfl hne⟩
  | rigTrans i =>
    obtain ⟨snapshot, pose, hsnapshot, hsnapshot', hread⟩ := h.exists_replaced_snapshot hk
    rw [blockSpec_rigTrans hsnapshot, blockSpec_rigTrans hsnapshot']
    exact ⟨⟨rfl, rfl, rfl⟩, nofun, fun _ => hread.trans_solved hk⟩
  | relRotation i j =>
    obtain ⟨m, pose, hm, hm', hread⟩ := h.exists_replaced_mounted hd hk
    obtain ⟨q, hq, hrotation, -⟩ := hread.solved hk
    rw [blockSpec_relRotation hm, blockSpec_relRotation hm']
    exact ⟨⟨rfl, rfl, rfl⟩, fun _ => ⟨q, hq, congrArg Quat.toList hrotation⟩, fun hne => absurd rfl hne⟩
  | relTrans i j =>
    obtain ⟨m, pose, hm, hm', hread⟩ := h.exists_replaced_mounted hd hk
    rw [blockSpec_relTrans hm, blockSpec_relTrans hm']
    exact ⟨⟨rfl, rfl, rfl⟩, nofun, fun _ => hread.trans_solved hk⟩
  | point i =>
    obtain ⟨x, hx⟩ := exists_point_of_uses hd hk
    obtain ⟨y, hy, hread⟩ := exists_getElem?_of_zipIdx h.points hx
    rw [blockSpec_point hx, blockSpec_point (d := d.replace r) hy]
    exact ⟨⟨rfl, rfl, rfl⟩, nofun, fun _ => hread.solved hk⟩

/-- The refined dataset is valid and has the same problem, which starts from what was read back of the solution. -/
theorem rebuilt_of_refine (hd : d.Valid) {optimizer : Optimizer α} {solver : SolveOptions α}
    (hkeeps : ∀ f, d.formulate options = .ok f → f.problem.CallsKeepLengths optimizer f.initial solver)
    (hr : d.refine optimizer options solver = .ok r) :
    ∃ f s f', d.formulate options = .ok f ∧ f.problem.solve optimizer f.initial solver = .ok s ∧
      d.Refined options f.problem s r ∧ (d.replace r).Valid ∧ (d.replace r).formulate options = .ok f' ∧
      f.Rebuilt s f' := by
  obtain ⟨f, s, hf, hs, hrefined⟩ := refined_of_refine hd hkeeps hr
  have hvalid := hrefined.valid_replace hd
  have hlength := hkeeps f hf
  obtain ⟨hne, rfl⟩ := (formulate_eq_ok hd).1 hf
  have hf' := (formulate_eq_ok hvalid).2 ⟨hrefined.measurements_replace ▸ hne, rfl⟩
  rw [hrefined.keys_replace, hrefined.measurements_replace] at hf'
  exact ⟨_, s, _, hf, hs, hrefined, hvalid, hf',
    rebuilt_of_solve hlength hs fun k hk => hrefined.blockSpec_replace hd ((mem_keys_iff_uses hd).1 hk)⟩

end Replace

variable {d : RigDataset ℝ} {options : RigOptions ℝ} {r : RigResult ℝ}

/-- All rotations of a dataset have norm one. -/
structure UnitRotations (d : RigDataset ℝ) : Prop where
  mounted : ∀ rig ∈ d.rigs, ∀ m ∈ rig.cameras, m.pose.rot.norm = 1
  snapshots : ∀ snapshot ∈ d.snapshots, snapshot.pose.rot.norm = 1

/-! ## Resuming -/

/-- The contents of a rotation block have norm one. -/
theorem UnitRotations.norm_value (h : d.UnitRotations) (hd : d.Valid) {k : RigKey} (hk : d.Uses options k)
    (hrotation : (d.blockSpec options k).manifold = .so3) : (Quat.ofList (d.blockSpec options k).value).norm = 1 := by
  cases k with
  | camera i =>
    obtain ⟨c, hc⟩ := exists_camera_of_uses hd hk
    rw [blockSpec_camera hc] at hrotation
    cases hrotation
  | rigRotation i =>
    obtain ⟨snapshot, hsnapshot⟩ := exists_snapshot_of_uses hk
    rw [blockSpec_rigRotation hsnapshot]
    exact h.snapshots snapshot (List.mem_of_getElem? hsnapshot)
  | rigTrans i =>
    obtain ⟨snapshot, hsnapshot⟩ := exists_snapshot_of_uses (i := i) hk
    rw [blockSpec_rigTrans hsnapshot] at hrotation
    cases hrotation
  | relRotation i j =>
    obtain ⟨rig, m, hrig, hm⟩ := exists_mounted_of_uses hd hk
    rw [blockSpec_relRotation (mounted?_eq hrig hm)]
    exact h.mounted rig (List.mem_of_getElem? hrig) m (List.mem_of_getElem? hm)
  | relTrans i j =>
    obtain ⟨rig, m, hrig, hm⟩ := exists_mounted_of_uses (i := i) (j := j) hd hk
    rw [blockSpec_relTrans (mounted?_eq hrig hm)] at hrotation
    cases hrotation
  | point i =>
    obtain ⟨x, hx⟩ := exists_point_of_uses hd hk
    rw [blockSpec_point hx] at hrotation
    cases hrotation

/-- The refined dataset has the same problem, which starts from the solution. -/
theorem resumed_of_refine (hd : d.Valid) (hunit : d.UnitRotations) {optimizer : Optimizer ℝ} {solver : SolveOptions ℝ}
    (hkeeps : ∀ f, d.formulate options = .ok f → f.problem.CallsKeep optimizer f.initial solver Compiled.HoldsUnit)
    (h : d.refine optimizer options solver = .ok r) :
    ∃ f s f', d.formulate options = .ok f ∧ f.problem.solve optimizer f.initial solver = .ok s ∧
      r.finalCost = s.finalCost ∧ (d.replace r).Valid ∧ (d.replace r).formulate options = .ok f' ∧ f.Resumed s f' := by
  obtain ⟨f, s, f', hf, hs, hrefined, hvalid, hf', hrebuilt⟩ :=
    rebuilt_of_refine hd (fun f hf => (hkeeps f hf).imp fun _ _ _ _ h => h.length) h
  have hrotations : s.params.UnitRotations f.problem := by
    have hholds := hkeeps f hf
    obtain ⟨-, rfl⟩ := (formulate_eq_ok hd).1 hf
    exact unitRotations_of_solve hholds hs fun k hk => hunit.norm_value hd ((mem_keys_iff_uses hd).1 hk)
  exact ⟨f, s, f', hf, hs, hrefined.finalCost, hvalid, hf', hrebuilt.resumed hrotations (Problem.cost_of_solve hs)⟩

/-! ## Constants -/

/-- Are the rig poses, poses on rigs, points and intrinsics that the options hold constant those of the dataset? -/
structure Constants (d : RigDataset ℝ) (options : RigOptions ℝ) (r : RigResult ℝ) : Prop where
  rigPoses : ∀ (i : Nat) (snapshot : Snapshot ℝ), d.snapshots[i]? = some snapshot → i ∈ options.constantRigPoses →
    r.rigPoses[i]? = some snapshot.pose
  relativePoses : ∀ (i j : Nat) (rig : Rig ℝ) (m : MountedCamera ℝ), d.rigs[i]? = some rig → rig.cameras[j]? = some m →
    j = 0 ∨ options.refineRelativePoses = false → ∃ poses, r.relativePoses[i]? = some poses ∧ poses[j]? = some m.pose
  points : ∀ (i : Nat) (x : Vec3 ℝ), d.points[i]? = some x → i ∈ options.constantPoints → r.points[i]? = some x
  intrinsics : ∀ (i : Nat) (c : Camera ℝ), d.cameras[i]? = some c → ∃ c', r.cameras[i]? = some c' ∧
    c'.model = c.model ∧ ∀ j, options.refine.LeavesOut c.model j → c'.params[j]? = c.params[j]?

/-- What the options hold constant comes back unchanged. -/
theorem constants_of_refine (hd : d.Valid) (hunit : d.UnitRotations) {optimizer : Optimizer ℝ}
    {solver : SolveOptions ℝ}
    (hkeeps : ∀ f, d.formulate options = .ok f → f.problem.CallsKeep optimizer f.initial solver Compiled.Holds)
    (h : d.refine optimizer options solver = .ok r) : d.Constants options r := by
  obtain ⟨f, s, hf, hs, hrefined⟩ :=
    refined_of_refine hd (fun f hf => (hkeeps f hf).imp fun _ _ _ _ h => h.length) h
  have hholds := hkeeps f hf
  obtain ⟨-, rfl⟩ := (formulate_eq_ok hd).1 hf
  have hheld : ∀ k, d.Uses options k → ∃ y, s.params.block? k = some y ∧ (d.blockSpec options k).Holds y :=
    fun k hk => holds_of_solve hholds hs ((mem_keys_iff_uses hd).2 hk)
  constructor
  case rigPoses =>
    intro i snapshot hsnapshot hconstant
    obtain ⟨pose, hpose, hread⟩ := exists_getElem?_of_zipIdx hrefined.rigPoses hsnapshot
    rw [hpose]
    refine congrArg some (hread.eq_of_holds (hunit.snapshots snapshot (List.mem_of_getElem? hsnapshot)) ?_ ?_)
    · intro hused
      have hrotation := hheld (.rigRotation i) hused
      rwa [blockSpec_rigRotation hsnapshot, List.contains_iff_mem.2 hconstant] at hrotation
    · intro hused
      have htrans := hheld (.rigTrans i) hused
      rwa [blockSpec_rigTrans hsnapshot, List.contains_iff_mem.2 hconstant] at htrans
  case relativePoses =>
    intro i j rig m hrig hm hconstant
    obtain ⟨poses, hposes, hreads⟩ := exists_getElem?_of_zipIdx hrefined.relativePoses hrig
    obtain ⟨pose, hpose, hread⟩ := exists_getElem?_of_zipIdx hreads hm
    refine ⟨poses, hposes, ?_⟩
    rw [hpose]
    have hrelative : isRelativeConstant options j = true := by
      rcases hconstant with rfl | hoff
      · simp [isRelativeConstant]
      · simp [isRelativeConstant, hoff]
    have hnorm := hunit.mounted rig (List.mem_of_getElem? hrig) m (List.mem_of_getElem? hm)
    refine congrArg some (hread.eq_of_holds hnorm ?_ ?_)
    · intro hused
      have hrotation := hheld (.relRotation i j) hused
      rwa [blockSpec_relRotation (mounted?_eq hrig hm), hrelative] at hrotation
    · intro hused
      have htrans := hheld (.relTrans i j) hused
      rwa [blockSpec_relTrans (mounted?_eq hrig hm), hrelative] at htrans
  case points =>
    intro i x hx hconstant
    obtain ⟨y, hy, hread⟩ := exists_getElem?_of_zipIdx hrefined.points hx
    rw [hy]
    refine congrArg some (hread.eq_of_holds fun hused => ?_)
    have hpoint := hheld (.point i) hused
    rwa [blockSpec_point hx, List.contains_iff_mem.2 hconstant] at hpoint
  case intrinsics =>
    intro i c hc
    obtain ⟨c', hc', hread⟩ := exists_getElem?_of_zipIdx hrefined.cameras hc
    refine ⟨c', hc', hread.model, hread.params_of_holds fun hused => ?_⟩
    have hcamera := hheld (.camera i) hused
    rwa [blockSpec_camera hc] at hcamera

/-- Writing a parameter of a camera, one that may move, keeps what is held constant. -/
theorem callsKeep_write (hd : d.Valid) {f : Formulation ℝ} (hf : d.formulate options = .ok f) {i : Nat} {c : Camera ℝ}
    (hc : d.cameras[i]? = some c) {j : Nat} (hfree : (options.refine.mask c.model).isFixed j = false) (a : ℝ)
    (solver : SolveOptions ℝ) :
    f.problem.CallsKeep (.moving (.write s!"cam/{i}" j a)) f.initial solver Compiled.HoldsUnit := by
  have hname : BlockKey.name (RigKey.camera i) = s!"cam/{i}" := rfl
  have hspec : d.blockSpec options (.camera i) = .camera options.refine c := blockSpec_camera hc
  obtain ⟨-, rfl⟩ := (formulate_eq_ok hd).1 hf
  rw [← hname]
  exact Measurement.callsKeep_write hspec hfree a

end RigDataset

end MultiView
