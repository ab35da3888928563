import MultiView.Bundle.Refine
import MultiView.Proofs.Bundle.Formulation
import MultiView.Proofs.Reconstruction.ReadBack

/-!
# What bundle adjustment returns

What takes part in the problem is what a usable observation needs (`BundleDataset.mem_keys_iff_uses`). With an optimizer
that keeps the lengths of values, a solution has values for what takes part and for nothing else
(`BundleDataset.solved_of_solve`). So what took part comes back with its solved values and all else as it was
(`BundleDataset.refined_of_refine`), unless something solved is unreadable (`BundleDataset.exists_error_refine_iff`).

An optimizer that moves values gives a result if the cameras stay valid and no rotation is moved
(`BundleDataset.exists_refine_moving`).
-/

namespace MultiView

open Measurement

namespace BundleDataset

variable {α : Type} {d : BundleDataset α} {options : BundleOptions α}

/-! ## What takes part -/

/-- Does a usable observation need the block of a key? -/
def Uses (d : BundleDataset α) (options : BundleOptions α) (k : BundleKey) : Prop :=
  ∃ x ∈ d.sightings options.minTrackLength, match k with
    | .camera i => x.2.1.camera = i
    | .rotation i | .trans i => x.1 = i ∧ i ∉ options.constantPoses
    | .point p => x.2.2.point = p

/-- The keys of the problem are those that usable observations need. -/
theorem mem_keys_iff_uses {k : BundleKey} : k ∈ d.keys options ↔ d.Uses options k := by
  simp only [mem_keys, measurements_eq, List.mem_map, exists_exists_and_eq_and, mem_reads, mem_poseKeys, Uses]
  refine exists_congr fun x => and_congr_right fun _ => ?_
  cases k with
  | camera i => simp [eq_comm]
  | rotation i | trans i => simp only [reduceCtorEq, BundleKey.rotation.injEq, BundleKey.trans.injEq]; grind
  | point i => simp [eq_comm]

variable [Scalar α]

theorem formulate_eq_ok (hd : d.Valid) {f : Formulation α} : d.formulate options = .ok f ↔
    d.measurements options ≠ [] ∧
      f = assemble (d.blockSpec options) options.loss (d.keys options) (d.measurements options) := by
  rw [formulate_eq hd]
  split
  · next hnil => simp [hnil]
  · next hne => simp only [Except.ok.injEq, ne_eq, hne, not_false_eq_true, true_and, @eq_comm _ _ f]

theorem exists_camera_of_uses {i : Nat} (hd : d.Valid) (h : d.Uses options (.camera i)) :
    ∃ c, d.cameras[i]? = some c := by
  obtain ⟨x, hx, rfl⟩ := h
  obtain ⟨hindex, ho⟩ := mem_sightings.1 hx
  obtain ⟨c, -, hc, -⟩ := hd.lookups hindex (List.mem_of_mem_filter ho)
  exact ⟨c, hc⟩

omit [Scalar α] in
theorem exists_image_of_uses {i : Nat} (h : d.Uses options (.rotation i)) : ∃ image, d.images[i]? = some image := by
  obtain ⟨x, hx, rfl, -⟩ := h
  exact ⟨x.2.1, (mem_sightings.1 hx).1⟩

theorem exists_point_of_uses {i : Nat} (hd : d.Valid) (h : d.Uses options (.point i)) : ∃ x, d.points[i]? = some x := by
  obtain ⟨x, hx, rfl⟩ := h
  obtain ⟨hindex, ho⟩ := mem_sightings.1 hx
  obtain ⟨-, p, -, -, hp⟩ := hd.lookups hindex (List.mem_of_mem_filter ho)
  exact ⟨p, hp⟩

/-! ## Solved values -/

/-- Are there values for what takes part and for nothing else, each of its length? -/
structure Solved (d : BundleDataset α) (options : BundleOptions α) (v : Values α) : Prop where
  camera : ∀ i c, d.cameras[i]? = some c →
    v.Has (BundleKey.camera i) (d.Uses options (.camera i)) c.model.numParams
  rotation : ∀ i image, d.images[i]? = some image →
    v.Has (BundleKey.rotation i) (d.Uses options (.rotation i)) 4
  trans : ∀ i image, d.images[i]? = some image → v.Has (BundleKey.trans i) (d.Uses options (.rotation i)) 3
  point : ∀ i x, d.points[i]? = some x → v.Has (BundleKey.point i) (d.Uses options (.point i)) 3

variable {optimizer : Optimizer α} {solver : SolveOptions α} {f : Formulation α} {s : Solution α}

/-- A solution has values of the right lengths, for what takes part and for nothing else. -/
theorem solved_of_solve (hd : d.Valid) (hf : d.formulate options = .ok f)
    (hkeeps : f.problem.CallsKeepLengths optimizer f.initial solver)
    (hs : f.problem.solve optimizer f.initial solver = .ok s) : d.Solved options s.params := by
  obtain ⟨-, rfl⟩ := (formulate_eq_ok hd).1 hf
  have hhas : ∀ k, s.params.Has k (d.Uses options k) (d.blockSpec options k).value.length := by
    intro k
    rw [← mem_keys_iff_uses]
    exact has_of_solve hkeeps hs k
  constructor
  case camera =>
    intro i c hc
    have h := hhas (.camera i)
    rw [blockSpec_camera hc] at h
    exact (hd.cameras c (List.mem_of_getElem? hc)).count ▸ h
  case rotation =>
    intro i image himage
    have h := hhas (.rotation i)
    rwa [blockSpec_rotation himage] at h
  case trans =>
    intro i image himage
    have h := hhas (.trans i)
    rwa [blockSpec_trans himage] at h
  case point =>
    intro i x hx
    have h := hhas (.point i)
    rwa [blockSpec_point hx] at h

/-! ## Results -/

/-- A result with one camera, pose and point for each of the dataset, at its own position: what took part with its
solved values, all else as it was. -/
structure Refined (d : BundleDataset α) (options : BundleOptions α) (p : Problem α) (s : Solution α)
    (r : BundleResult α) : Prop where
  cameras : List.Forall₂
    (fun x c => Camera.Refined s.params s!"cam/{x.2}" (d.Uses options (.camera x.2)) x.1 c) d.cameras.zipIdx r.cameras
  poses : List.Forall₂
    (fun x pose => Pose.Refined s.params s!"rot/{x.2}" s!"trans/{x.2}" (d.Uses options (.rotation x.2)) x.1.pose pose)
    d.images.zipIdx r.poses
  points : List.Forall₂
    (fun x y => Vec3.Refined s.params s!"point/{x.2}" (d.Uses options (.point x.2)) x.1 y) d.points.zipIdx r.points
  valid : ∀ c ∈ r.cameras, c.validate = .ok ()
  initialCost : r.initialCost = s.initialCost
  finalCost : r.finalCost = s.finalCost
  numResiduals : r.numResiduals = (d.observations.filter (usable options.minTrackLength d.trackLengths)).length
  meanError : p.meanError s.params = .ok r.meanError

/-- Cannot some solved camera or rotation be read back? -/
def Unreadable (d : BundleDataset α) (options : BundleOptions α) (v : Values α) : Prop :=
  (∃ i c, d.cameras[i]? = some c ∧ d.Uses options (.camera i) ∧ c.Unreadable v s!"cam/{i}") ∨
    ∃ i, d.Uses options (.rotation i) ∧ Quat.Unreadable v s!"rot/{i}"

theorem refined_of_readBack (hd : d.Valid) (hf : d.formulate options = .ok f) (hsolved : d.Solved options s.params)
    {r : BundleResult α} (h : d.readBack f.problem s = .ok r) : d.Refined options f.problem s r := by
  obtain ⟨-, rfl⟩ := (formulate_eq_ok hd).1 hf
  simp only [readBack, bind_eq_ok, pure_eq_ok] at h
  obtain ⟨cameras, hcameras, poses, hposes, points, hpoints, meanError, hmean, rfl⟩ := h
  exact
    { cameras := forall₂_of_readEach hcameras fun i c c' hc hread => Values.camera_refined (hsolved.camera i c hc) hread
      poses := forall₂_of_readEach hposes fun i image pose himage hread =>
        Values.pose_refined (hsolved.rotation i image himage) (hsolved.trans i image himage) hread
      points := forall₂_of_readEach hpoints fun i x y hx hread => Values.point_refined (hsolved.point i x hx) hread
      valid := fun c hc => by
        obtain ⟨x, hx, hread⟩ := exists_of_mem_right (readEach_eq_ok.1 hcameras) hc
        exact Camera.validate_eq_ok.2 (Values.valid_camera (hd.cameras _ (List.fst_mem_of_mem_zipIdx hx)) hread)
      initialCost := rfl
      finalCost := rfl
      numResiduals := by
        rw [← map_sightings, List.length_map]
        simp only [assemble, measurements_eq, List.length_map]
      meanError := hmean }

/-- Solved values are read back unless a camera or a rotation is unreadable. -/
theorem exists_readBack_iff (hsolved : d.Solved options s.params) {p : Problem α} {e : α}
    (hmean : p.meanError s.params = .ok e) :
    (∃ r, d.readBack p s = .ok r) ↔ ¬d.Unreadable options s.params := by
  simp only [readBack, bind_eq_ok, pure_eq_ok]
  constructor
  · rintro ⟨_, cameras, hcameras, poses, hposes, -⟩ (⟨i, c, hc, -, hbad⟩ | ⟨i, hused, hbad⟩)
    · exact (Values.exists_camera (hsolved.camera i c hc)).1 (exists_readEach.1 ⟨cameras, hcameras⟩ i c hc) hbad
    · obtain ⟨image, himage⟩ := exists_image_of_uses hused
      exact (Values.exists_pose (hsolved.rotation i image himage) (hsolved.trans i image himage)).1
        (exists_readEach.1 ⟨poses, hposes⟩ i image himage) hbad
  · intro hreadable
    obtain ⟨cameras, hcameras⟩ := exists_readEach.2 fun i c hc =>
      (Values.exists_camera (hsolved.camera i c hc)).2 fun hbad =>
        hreadable (.inl ⟨i, c, hc, (hsolved.camera i c hc).used_of_value hbad.exists_value, hbad⟩)
    obtain ⟨poses, hposes⟩ := exists_readEach.2 fun i (image : Image α) himage =>
      have hrotation := hsolved.rotation i image himage
      (Values.exists_pose (p := image.pose) hrotation (hsolved.trans i image himage)).2 fun hbad =>
        hreadable (.inr ⟨i, hrotation.used_of_value hbad.exists_value, hbad⟩)
    obtain ⟨points, hpoints⟩ := exists_readEach.2 fun i x hx => Values.exists_point (hsolved.point i x hx)
    exact ⟨_, cameras, hcameras, poses, hposes, points, hpoints, e, hmean, rfl⟩

/-! ## Refining -/

/-- A result is that of the solved values of the formulation. -/
theorem refined_of_refine (hd : d.Valid)
    (hkeeps : ∀ f, d.formulate options = .ok f → f.problem.CallsKeepLengths optimizer f.initial solver)
    {r : BundleResult α} (h : d.refine optimizer options solver = .ok r) :
    ∃ f s, d.formulate options = .ok f ∧ f.problem.solve optimizer f.initial solver = .ok s ∧
      d.Refined options f.problem s r := by
  simp only [refine, bind_eq_ok, mapError_eq_ok] at h
  obtain ⟨f, hf, s, hs, hread⟩ := h
  exact ⟨f, s, hf, hs, refined_of_readBack hd hf (solved_of_solve hd hf (hkeeps f hf) hs) hread⟩

/-- There is no result exactly for the reasons of `RefineFails`. -/
theorem exists_error_refine_iff (hd : d.Valid)
    (hkeeps : ∀ f, d.formulate options = .ok f → f.problem.CallsKeepLengths optimizer f.initial solver) :
    (∃ e, d.refine optimizer options solver = .error e) ↔
      RefineFails (d.formulate options) optimizer solver (d.Unreadable options) := by
  refine exists_error_iff_refineFails hkeeps fun f s hf hs => ?_
  obtain ⟨e, he⟩ := Problem.exists_meanError_of_solve hs
  have hsolved := solved_of_solve hd hf (hkeeps f hf) hs
  rw [exists_error_iff, exists_readBack_iff hsolved he, not_not]

/-! ## Optimizers that move values -/

theorem exists_solve_moving (hd : d.Valid) (hloss : options.loss.Admissible)
    (husable : ∃ o ∈ d.observations, usable options.minTrackLength d.trackLengths o = true) (m : Move α)
    (solver : SolveOptions α) :
    ∃ f s, d.formulate options = .ok f ∧ f.problem.solve (.moving m) f.initial solver = .ok s := by
  obtain ⟨f, hf, hsound⟩ := (soundIfAny hd).exists_sound husable
  obtain ⟨s, hs⟩ := hsound.exists_solve_moving hloss m solver
  exact ⟨f, s, hf, hs⟩

/-- Where the initial cost is not small already, what takes part is moved. -/
theorem moved_of_solve [LawfulBEq α] {m : Move α} (hd : d.Valid) (hf : d.formulate options = .ok f)
    (hs : f.problem.solve (.moving m) f.initial solver = .ok s) (hlarge : solver.stopping.minError < s.initialCost)
    {k : BundleKey} (hk : d.Uses options k) :
    s.params.block? k = some (m.value (BlockKey.name k) (d.blockSpec options k).value) := by
  obtain ⟨-, rfl⟩ := (formulate_eq_ok hd).1 hf
  exact Measurement.moved_of_solve hs hlarge (mem_keys_iff_uses.2 hk)

/-- Refining succeeds with an optimizer that moves values, if moved cameras are valid and rotations stay. -/
theorem exists_refine_moving {m : Move α} (hd : d.Valid) (hloss : options.loss.Admissible)
    (husable : ∃ o ∈ d.observations, usable options.minTrackLength d.trackLengths o = true)
    (hcameras : ∀ (i : Nat) (c : Camera α), d.cameras[i]? = some c →
      (⟨c.model, m.value s!"cam/{i}" c.params⟩ : Camera α).Valid)
    (hrotations : ∀ (i : Nat) (image : Image α), d.images[i]? = some image → image.pose.rot.IsDirection ∧
      m.value s!"rot/{i}" image.pose.rot.toList = image.pose.rot.toList) (solver : SolveOptions α) :
    ∃ r, d.refine (.moving m) options solver = .ok r := by
  by_contra hnone
  rw [← exists_error_iff, exists_error_refine_iff hd fun f _ => Problem.callsKeepLengths_moving] at hnone
  obtain ⟨f, hf, hsound⟩ := (soundIfAny hd).exists_sound husable
  rw [hf] at hnone
  refine hsound.not_refineFails_moving hloss (fun s hs hbad => ?_) hnone
  obtain ⟨-, rfl⟩ := (formulate_eq_ok hd).1 hf
  have hvalue : ∀ k, d.Uses options k →
      ∃ y, s.params.block? k = some y ∧ m.Moves (BlockKey.name k) (d.blockSpec options k).value y :=
    fun k hk => moves_of_solve hs (mem_keys_iff_uses.2 hk)
  rcases hbad with ⟨i, c, hc, hused, hbad⟩ | ⟨i, hused, hbad⟩
  · obtain ⟨y, hy, hmoves⟩ := hvalue _ hused
    rw [blockSpec_camera hc] at hmoves
    rcases hmoves with rfl | rfl
    · exact (hd.cameras c (List.mem_of_getElem? hc)).not_unreadable hy hbad
    · exact (hcameras i c hc).not_unreadable hy hbad
  · obtain ⟨image, himage⟩ := exists_image_of_uses hused
    obtain ⟨hdirection, hstays⟩ := hrotations i image himage
    obtain ⟨y, hy, hmoves⟩ := hvalue _ hused
    rw [blockSpec_rotation himage] at hmoves
    obtain rfl : y = image.pose.rot.toList := hmoves.elim id fun h => h.trans hstays
    exact hdirection.not_unreadable hy hbad

/-- Refining succeeds with an optimizer that changes nothing. -/
theorem exists_refine_still (hd : d.Valid) (hloss : options.loss.Admissible)
    (husable : ∃ o ∈ d.observations, usable options.minTrackLength d.trackLengths o = true)
    (hposes : ∀ image ∈ d.images, image.pose.rot.IsDirection) (solver : SolveOptions α) :
    ∃ r, d.refine .still options solver = .ok r :=
  exists_refine_moving hd hloss husable (fun _ c hc => hd.cameras c (List.mem_of_getElem? hc))
    (fun _ image himage => ⟨hposes image (List.mem_of_getElem? himage), rfl⟩) solver

/-- Refining succeeds with an optimizer that writes a parameter of a camera, if the camera stays valid. -/
theorem exists_refine_write (hd : d.Valid) (hloss : options.loss.Admissible)
    (husable : ∃ o ∈ d.observations, usable options.minTrackLength d.trackLengths o = true)
    (hposes : ∀ image ∈ d.images, image.pose.rot.IsDirection) {i : Nat} {c : Camera α} (hc : d.cameras[i]? = some c)
    {j : Nat} {a : α} (hvalid : (⟨c.model, c.params.set j a⟩ : Camera α).Valid) (solver : SolveOptions α) :
    ∃ r, d.refine (.moving (.write s!"cam/{i}" j a)) options solver = .ok r := by
  have hkey : Function.Injective BundleKey.camera := fun _ _ => BundleKey.camera.inj
  have hother : ∀ k, k ≠ .camera i → ∀ x, (Move.write s!"cam/{i}" j a).value (BlockKey.name (k : BundleKey)) x = x :=
    fun k => Move.value_write_key
  refine exists_refine_moving hd hloss husable (Camera.valid_write hkey hd.cameras hc hvalid)
    (fun i' image himage => ?_) solver
  exact ⟨hposes image (List.mem_of_getElem? himage), hother (.rotation i') nofun _⟩

end BundleDataset

end MultiView
