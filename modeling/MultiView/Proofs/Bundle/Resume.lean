import MultiView.Proofs.Bundle.Refine
import MultiView.Proofs.Reconstruction.Held

/-!
# Bundle adjustment again

What the options hold constant comes back unchanged (`BundleDataset.constants_of_refine`), if the optimizer holds
constant what is registered so.

A dataset whose cameras, poses and points are replaced by the refined ones (`BundleDataset.replace`) is valid and has
the same problem (`BundleDataset.rebuilt_of_refine`): the same observations are usable, and they need the same blocks.
In exact arithmetic it starts from the solved values (`BundleDataset.resumed_of_refine`) if the dataset's quaternions
have norm one: then nothing is lost in reading the solved values back, which scales quaternions to that length.
-/

namespace MultiView

open Measurement

namespace BundleDataset

/-! ## Constants -/

section Constants

variable {α : Type} [Scalar α] {d : BundleDataset α} {options : BundleOptions α}

/-- Are the poses, points and intrinsics that the options hold constant those of the dataset? -/
structure Constants (d : BundleDataset α) (options : BundleOptions α) (r : BundleResult α) : Prop where
  poses : ∀ (i : Nat) (image : Image α), d.images[i]? = some image → i ∈ options.constantPoses →
    r.poses[i]? = some image.pose
  points : ∀ (i : Nat) (x : Vec3 α), d.points[i]? = some x → i ∈ options.constantPoints → r.points[i]? = some x
  intrinsics : ∀ (i : Nat) (c : Camera α), d.cameras[i]? = some c → ∃ c', r.cameras[i]? = some c' ∧
    c'.model = c.model ∧ ∀ j, options.refine.LeavesOut c.model j → c'.params[j]? = c.params[j]?

/-- What the options hold constant comes back unchanged. -/
theorem constants_of_refine (hd : d.Valid) {optimizer : Optimizer α} {solver : SolveOptions α}
    (hkeeps : ∀ f, d.formulate options = .ok f → f.problem.CallsKeep optimizer f.initial solver Compiled.Holds)
    {r : BundleResult α} (h : d.refine optimizer options solver = .ok r) : d.Constants options r := by
  obtain ⟨f, s, hf, hs, hrefined⟩ :=
    refined_of_refine hd (fun f hf => (hkeeps f hf).imp fun _ _ _ _ h => h.length) h
  have hholds := hkeeps f hf
  obtain ⟨-, rfl⟩ := (formulate_eq_ok hd).1 hf
  constructor
  case poses =>
    intro i image himage hconstant
    obtain ⟨pose, hpose, hread⟩ := exists_getElem?_of_zipIdx hrefined.poses himage
    rw [hpose, hread.unused]
    rintro ⟨x, -, -, hvariable⟩
    exact hvariable hconstant
  case points =>
    intro i x hx hconstant
    obtain ⟨y, hy, hread⟩ := exists_getElem?_of_zipIdx hrefined.points hx
    rw [hy]
    refine congrArg some (hread.eq_of_holds fun hused => ?_)
    have hpoint := holds_of_solve hholds hs (mem_keys_iff_uses.2 hused)
    rwa [blockSpec_point hx, List.contains_iff_mem.2 hconstant] at hpoint
  case intrinsics =>
    intro i c hc
    obtain ⟨c', hc', hread⟩ := exists_getElem?_of_zipIdx hrefined.cameras hc
    refine ⟨c', hc', hread.model, hread.params_of_holds fun hused => ?_⟩
    have hcamera := holds_of_solve hholds hs (mem_keys_iff_uses.2 hused)
    rwa [blockSpec_camera hc] at hcamera

/-- Writing a parameter of a camera, one that may move, keeps what is held constant. -/
theorem callsKeep_write (hd : d.Valid) {f : Formulation α} (hf : d.formulate options = .ok f) {i : Nat} {c : Camera α}
    (hc : d.cameras[i]? = some c) {j : Nat} (hfree : (options.refine.mask c.model).isFixed j = false) (a : α)
    (solver : SolveOptions α) :
    f.problem.CallsKeep (.moving (.write s!"cam/{i}" j a)) f.initial solver Compiled.HoldsUnit := by
  have hname : BlockKey.name (BundleKey.camera i) = s!"cam/{i}" := rfl
  have hspec : d.blockSpec options (.camera i) = .camera options.refine c := blockSpec_camera hc
  obtain ⟨-, rfl⟩ := (formulate_eq_ok hd).1 hf
  rw [← hname]
  exact Measurement.callsKeep_write hspec hfree a

end Constants

/-! ## Replacing -/

section Replace

variable {α : Type} [Scalar α] {d : BundleDataset α} {options : BundleOptions α} {p : Problem α} {s : Solution α}
  {r : BundleResult α}

/-- The dataset with refined cameras, poses and points. -/
def replace (d : BundleDataset α) (r : BundleResult α) : BundleDataset α where
  cameras := r.cameras
  images := List.zipWith (fun image pose => { image with pose }) d.images r.poses
  points := r.points

variable (h : d.Refined options p s r)

include h in
theorem Refined.trackLengths_replace : (d.replace r).trackLengths = d.trackLengths := by
  have hobservations : (d.replace r).observations = d.observations := by
    rw [observations, observations, List.flatMap_def, List.flatMap_def]
    exact congrArg List.flatten (map_zipWith_of_forall (length_eq_of_zipIdx h.poses) fun _ _ => rfl)
  rw [trackLengths, trackLengths, hobservations, replace, length_eq_of_zipIdx h.points]

include h in
/-- The measurements are those from before: a pose is part of one only if it is held constant. -/
theorem Refined.measurements_replace : (d.replace r).measurements options = d.measurements options := by
  rw [measurements, measurements, List.flatMap_def, List.flatMap_def]
  refine congrArg List.flatten (map_zipIdx_zipWith (length_eq_of_zipIdx h.poses) fun i image pose himage hpose => ?_)
  have hmodel := Camera.modelAt_congr (h.cameras.imp fun _ _ hread => hread.model)
  have hmeasurement : (d.replace r).measurement options i { image with pose } = d.measurement options i image := by
    funext o
    simp only [measurement, replace, hmodel]
    split
    · next hconstant =>
      -- no block stands for a constant pose, so it is read back as it was
      obtain ⟨pose', hpose', hread⟩ := exists_getElem?_of_zipIdx h.poses himage
      obtain rfl := Option.some.inj (hpose.symm.trans hpose')
      rw [hread.unused]
      rintro ⟨x, -, -, hvariable⟩
      exact hvariable (List.contains_iff_mem.1 hconstant)
    · rfl
  simp only [imageMeasurements, usableObservations, h.trackLengths_replace, hmeasurement]

include h in
theorem Refined.keys_replace : (d.replace r).keys options = d.keys options := by
  rw [keys, keys, List.flatMap_def, List.flatMap_def]
  refine congrArg (fun new => addKeys [] (List.flatten new))
    (map_zipIdx_zipWith (length_eq_of_zipIdx h.poses) fun i image pose _ _ => ?_)
  simp only [imageKeys, usableObservations, h.trackLengths_replace]

include h in
/-- The refined dataset is valid. -/
theorem Refined.valid_replace (hd : d.Valid) : (d.replace r).Valid := by
  have hcameras : r.cameras.length = d.cameras.length := length_eq_of_zipIdx h.cameras
  have hpoints : r.points.length = d.points.length := length_eq_of_zipIdx h.points
  have hposes : r.poses.length = d.images.length := length_eq_of_zipIdx h.poses
  have himage : ∀ image' ∈ (d.replace r).images, ∃ image ∈ d.images,
      image'.camera = image.camera ∧ image'.observations = image.observations := by
    intro image' himage'
    obtain ⟨image, himage, pose, -, rfl⟩ := exists_of_mem_zipWith himage'
    exact ⟨image, himage, rfl, rfl⟩
  constructor
  case images =>
    have hne := List.length_pos_iff.2 hd.images
    rw [← List.length_pos_iff, replace, List.length_zipWith]
    omega
  case cameras => exact fun c hc => Camera.validate_eq_ok.1 (h.valid c hc)
  case camera =>
    intro image' himage'
    obtain ⟨image, hmem, hcamera, -⟩ := himage image' himage'
    rw [hcamera, replace, hcameras]
    exact hd.camera image hmem
  case point =>
    intro image' himage' o ho
    obtain ⟨image, hmem, -, hobservations⟩ := himage image' himage'
    rw [replace, hpoints]
    exact hd.point image hmem o (hobservations ▸ ho)

include h in
/-- An image whose pose is solved, and the image with the refined pose. -/
theorem Refined.exists_replaced_image {i : Nat} (hused : d.Uses options (.rotation i)) :
    ∃ image pose, d.images[i]? = some image ∧ (d.replace r).images[i]? = some { image with pose } ∧
      Pose.Refined s.params s!"rot/{i}" s!"trans/{i}" (d.Uses options (.rotation i)) image.pose pose := by
  obtain ⟨image, himage⟩ := exists_image_of_uses hused
  obtain ⟨pose, hpose, hread⟩ := exists_getElem?_of_zipIdx h.poses himage
  refine ⟨image, pose, himage, ?_, hread⟩
  simp only [replace, List.getElem?_zipWith, himage, hpose]

include h in
/-- The refined dataset has the contents of its blocks from the solved values. -/
theorem Refined.blockSpec_replace (hd : d.Valid) {k : BundleKey} (hk : d.Uses options k) :
    ((d.replace r).blockSpec options k).ReadBack (d.blockSpec options k) (s.params.block? k) := by
  cases k with
  | camera i =>
    obtain ⟨c, hc⟩ := exists_camera_of_uses hd hk
    obtain ⟨c', hc', hread⟩ := exists_getElem?_of_zipIdx h.cameras hc
    have hvalid := hd.cameras c (List.mem_of_getElem? hc)
    have hvalid' := Camera.validate_eq_ok.1 (h.valid c' (List.mem_of_getElem? hc'))
    rw [blockSpec_camera hc, blockSpec_camera (d := d.replace r) hc']
    exact ⟨BlockSpec.replaces_camera hvalid hvalid' hread.model options.refine, nofun, fun _ => hread.solved hk⟩
  | rotation i =>
    obtain ⟨image, pose, himage, himage', hread⟩ := h.exists_replaced_image hk
    obtain ⟨q, hq, hrotation, -⟩ := hread.solved hk
    rw [blockSpec_rotation himage, blockSpec_rotation himage']
    exact ⟨⟨rfl, rfl, rfl⟩, fun _ => ⟨q, hq, congrArg Quat.toList hrotation⟩, fun hne => absurd rfl hne⟩
  | trans i =>
    obtain ⟨image, pose, himage, himage', hread⟩ := h.exists_replaced_image (i := i) hk
    rw [blockSpec_trans himage, blockSpec_trans himage']
    exact ⟨⟨rfl, rfl, rfl⟩, nofun, fun _ => hread.trans_solved hk⟩
  | point i =>
    obtain ⟨x, hx⟩ := exists_point_of_uses hd hk
    obtain ⟨y, hy, hread⟩ := exists_getElem?_of_zipIdx h.points hx
    rw [blockSpec_point hx, blockSpec_point (d := d.replace r) hy]
    exact ⟨⟨rfl, rfl, rfl⟩, nofun, fun _ => hread.solved hk⟩

/-- The refined dataset is valid and has the same problem, which starts from what was read back of the solution. -/
theorem rebuilt_of_refine (hd : d.Valid) {optimizer : Optimizer α} {solver : SolveOptions α}
    (hkeeps : ∀ f, d.formulate options = .ok f → f.problem.CallsKeepLengths optimizer f.initial solver)
    (hr : d.refine optimizer options solver = .ok r) :
    ∃ f s f', d.formulate options = .ok f ∧ f.problem.solve optimizer f.initial solver = .ok s ∧
      d.Refined options f.problem s r ∧ (d.replace r).Valid ∧ (d.replace r).formulate options = .ok f' ∧
      f.Rebuilt s f' := by
  obtain ⟨f, s, hf, hs, hrefined⟩ := refined_of_refine hd hkeeps hr
  have hvalid := hrefined.valid_replace hd
  have hlength := hkeeps f hf
  obtain ⟨hne, rfl⟩ := (formulate_eq_ok hd).1 hf
  have hf' := (formulate_eq_ok hvalid).2 ⟨hrefined.measurements_replace ▸ hne, rfl⟩
  rw [hrefined.keys_replace, hrefined.measurements_replace] at hf'
  exact ⟨_, s, _, hf, hs, hrefined, hvalid, hf',
    rebuilt_of_solve hlength hs fun k hk => hrefined.blockSpec_replace hd (mem_keys_iff_uses.1 hk)⟩

end Replace

/-! ## Resuming -/

variable {d : BundleDataset ℝ} {options : BundleOptions ℝ} {r : BundleResult ℝ}

/-- The contents of a rotation block have norm one. -/
theorem norm_value (hunit : ∀ image ∈ d.images, image.pose.rot.norm = 1) (hd : d.Valid) {k : BundleKey}
    (hk : d.Uses options k) (hrotation : (d.blockSpec options k).manifold = .so3) :
    (Quat.ofList (d.blockSpec options k).value).norm = 1 := by
  cases k with
  | camera i =>
    obtain ⟨c, hc⟩ := exists_camera_of_uses hd hk
    rw [blockSpec_camera hc] at hrotation
    cases hrotation
  | rotation i =>
    obtain ⟨image, himage⟩ := exists_image_of_uses hk
    rw [blockSpec_rotation himage]
    exact hunit image (List.mem_of_getElem? himage)
  | trans i =>
    obtain ⟨image, himage⟩ := exists_image_of_uses (i := i) hk
    rw [blockSpec_trans himage] at hrotation
    cases hrotation
  | point i =>
    obtain ⟨x, hx⟩ := exists_point_of_uses hd hk
    rw [blockSpec_point hx] at hrotation
    cases hrotation

/-- The refined dataset has the same problem, which starts from the solution. -/
theorem resumed_of_refine (hd : d.Valid) (hunit : ∀ image ∈ d.images, image.pose.rot.norm = 1)
    {optimizer : Optimizer ℝ} {solver : SolveOptions ℝ}
    (hkeeps : ∀ f, d.formulate options = .ok f → f.problem.CallsKeep optimizer f.initial solver Compiled.HoldsUnit)
    (h : d.refine optimizer options solver = .ok r) :
    ∃ f s f', d.formulate options = .ok f ∧ f.problem.solve optimizer f.initial solver = .ok s ∧
      r.finalCost = s.finalCost ∧ (d.replace r).Valid ∧ (d.replace r).formulate options = .ok f' ∧ f.Resumed s f' := by
  obtain ⟨f, s, f', hf, hs, hrefined, hvalid, hf', hrebuilt⟩ :=
    rebuilt_of_refine hd (fun f hf => (hkeeps f hf).imp fun _ _ _ _ h => h.length) h
  have hrotations : s.params.UnitRotations f.problem := by
    have hholds := hkeeps f hf
    obtain ⟨-, rfl⟩ := (formulate_eq_ok hd).1 hf
    exact unitRotations_of_solve hholds hs fun k hk => norm_value hunit hd (mem_keys_iff_uses.1 hk)
  exact ⟨f, s, f', hf, hs, hrefined.finalCost, hvalid, hf', hrebuilt.resumed hrotations (Problem.cost_of_solve hs)⟩

end BundleDataset

end MultiView
