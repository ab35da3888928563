import MultiView.Rig.Refine
import MultiView.Proofs.Rig.Formulation
import MultiView.Proofs.Reconstruction.ReadBack

/-!
# What rig adjustment returns

What takes part in the problem is what a usable observation needs (`RigDataset.mem_keys_iff_uses`), and it is part of
the dataset. With an optimizer that keeps the lengths of values, a solution has values for what takes part and for
nothing else (`RigDataset.solved_of_solve`). So what took part comes back with its solved values and all else as it was
(`RigDataset.refined_of_refine`), unless something solved is unreadable (`RigDataset.exists_error_refine_iff`).

An optimizer that moves values gives a result if the cameras stay valid and no rotation is moved
(`RigDataset.exists_refine_moving`).
-/

namespace MultiView

open Measurement

namespace RigDataset

variable {α : Type} [Scalar α] {d : RigDataset α} {options : RigOptions α}

theorem formulate_eq_ok (hd : d.Valid) {f : Formulation α} : d.formulate options = .ok f ↔
    d.measurements options ≠ [] ∧
      f = assemble (d.blockSpec options) options.loss (d.keys options) (d.measurements options) := by
  rw [formulate_eq hd]
  split
  · next hnil => simp [hnil]
  · next hne => simp only [Except.ok.injEq, ne_eq, hne, not_false_eq_true, true_and, @eq_comm _ _ f]

/-! ## What takes part exists -/

omit [Scalar α] in
theorem mounted?_eq_some {i j : Nat} {m : MountedCamera α} :
    d.mounted? i j = some m ↔ ∃ rig, d.rigs[i]? = some rig ∧ rig.cameras[j]? = some m :=
  Option.bind_eq_some_iff

omit [Scalar α] in
theorem exists_snapshot_of_uses {i : Nat} (h : d.Uses options (.rigRotation i)) :
    ∃ snapshot, d.snapshots[i]? = some snapshot := by
  obtain ⟨x, hx, rfl⟩ := h
  exact ⟨x.2.1, (mem_sightings.1 hx).1⟩

theorem exists_mounted_of_uses {i j : Nat} (hd : d.Valid) (h : d.Uses options (.relRotation i j)) :
    ∃ rig m, d.rigs[i]? = some rig ∧ rig.cameras[j]? = some m := by
  obtain ⟨x, hx, rfl, rfl⟩ := h
  obtain ⟨hindex, himage, ho⟩ := mem_sightings.1 hx
  obtain ⟨m, -, -, hm, -⟩ := hd.lookups hindex himage (List.mem_of_mem_filter ho)
  obtain ⟨rig, hrig, hm⟩ := mounted?_eq_some.1 hm
  exact ⟨rig, m, hrig, hm⟩

theorem exists_camera_of_uses {i : Nat} (hd : d.Valid) (h : d.Uses options (.camera i)) :
    ∃ c, d.cameras[i]? = some c := by
  obtain ⟨x, hx, m, hm, rfl⟩ := h
  obtain ⟨hindex, himage, ho⟩ := mem_sightings.1 hx
  obtain ⟨m', c, -, hm', hc, -⟩ := hd.lookups hindex himage (List.mem_of_mem_filter ho)
  obtain rfl := Option.some.inj (hm.symm.trans hm')
  exact ⟨c, hc⟩

theorem exists_point_of_uses {i : Nat} (hd : d.Valid) (h : d.Uses options (.point i)) : ∃ x, d.points[i]? = some x := by
  obtain ⟨x, hx, rfl⟩ := h
  obtain ⟨hindex, himage, ho⟩ := mem_sightings.1 hx
  obtain ⟨-, -, p, -, -, -, hp⟩ := hd.lookups hindex himage (List.mem_of_mem_filter ho)
  exact ⟨p, hp⟩

/-! ## Solved values -/

/-- Are there values for what takes part and for nothing else, each of its length? -/
structure Solved (d : RigDataset α) (options : RigOptions α) (v : Values α) : Prop where
  camera : ∀ i c, d.cameras[i]? = some c → v.Has (RigKey.camera i) (d.Uses options (.camera i)) c.model.numParams
  relRotation : ∀ i rig j m, d.rigs[i]? = some rig → rig.cameras[j]? = some m →
    v.Has (RigKey.relRotation i j) (d.Uses options (.relRotation i j)) 4
  relTrans : ∀ i rig j m, d.rigs[i]? = some rig → rig.cameras[j]? = some m →
    v.Has (RigKey.relTrans i j) (d.Uses options (.relRotation i j)) 3
  rigRotation : ∀ i snapshot, d.snapshots[i]? = some snapshot →
    v.Has (RigKey.rigRotation i) (d.Uses options (.rigRotation i)) 4
  rigTrans : ∀ i snapshot, d.snapshots[i]? = some snapshot →
    v.Has (RigKey.rigTrans i) (d.Uses options (.rigRotation i)) 3
  point : ∀ i x, d.points[i]? = some x → v.Has (RigKey.point i) (d.Uses options (.point i)) 3

variable {optimizer : Optimizer α} {solver : SolveOptions α} {f : Formulation α} {s : Solution α}

/-- A solution has values of the right lengths, for what takes part and for nothing else. -/
theorem solved_of_solve (hd : d.Valid) (hf : d.formulate options = .ok f)
    (hkeeps : f.problem.CallsKeepLengths optimizer f.initial solver)
    (hs : f.problem.solve optimizer f.initial solver = .ok s) : d.Solved options s.params := by
  obtain ⟨-, rfl⟩ := (formulate_eq_ok hd).1 hf
  have hhas : ∀ k, s.params.Has k (d.Uses options k) (d.blockSpec options k).value.length := by
    intro k
    rw [← mem_keys_iff_uses hd]
    exact has_of_solve hkeeps hs k
  constructor
  case camera =>
    intro i c hc
    have h := hhas (.camera i)
    rw [blockSpec_camera hc] at h
    exact (hd.cameras c (List.mem_of_getElem? hc)).count ▸ h
  case relRotation =>
    intro i rig j m hrig hm
    have h := hhas (.relRotation i j)
    rwa [blockSpec_relRotation (mounted?_eq hrig hm)] at h
  case relTrans =>
    intro i rig j m hrig hm
    have h := hhas (.relTrans i j)
    rwa [blockSpec_relTrans (mounted?_eq hrig hm)] at h
  case rigRotation =>
    intro i snapshot hsnapshot
    have h := hhas (.rigRotation i)
    rwa [blockSpec_rigRotation hsnapshot] at h
  case rigTrans =>
    intro i snapshot hsnapshot
    have h := hhas (.rigTrans i)
    rwa [blockSpec_rigTrans hsnapshot] at h
  case point =>
    intro i x hx
    have h := hhas (.point i)
    rwa [blockSpec_point hx] at h

/-! ## Results -/

/-- A result with one camera, one pose for each camera of each rig, one rig pose for each snapshot and one point for
each of the dataset, at its own position: what took part with its solved values, all else as it was. -/
structure Refined (d : RigDataset α) (options : RigOptions α) (p : Problem α) (s : Solution α) (r : RigResult α) :
    Prop where
  cameras : List.Forall₂
    (fun x c => Camera.Refined s.params s!"cam/{x.2}" (d.Uses options (.camera x.2)) x.1 c) d.cameras.zipIdx r.cameras
  relativePoses : List.Forall₂
    (fun x poses => List.Forall₂
      (fun m pose => Pose.Refined s.params s!"rel_rot/{x.2}/{m.2}" s!"rel_trans/{x.2}/{m.2}"
        (d.Uses options (.relRotation x.2 m.2)) m.1.pose pose) x.1.cameras.zipIdx poses)
    d.rigs.zipIdx r.relativePoses
  rigPoses : List.Forall₂
    (fun x pose => Pose.Refined s.params s!"rig_rot/{x.2}" s!"rig_trans/{x.2}" (d.Uses options (.rigRotation x.2))
      x.1.pose pose) d.snapshots.zipIdx r.rigPoses
  points : List.Forall₂
    (fun x y => Vec3.Refined s.params s!"point/{x.2}" (d.Uses options (.point x.2)) x.1 y) d.points.zipIdx r.points
  valid : ∀ c ∈ r.cameras, c.validate = .ok ()
  initialCost : r.initialCost = s.initialCost
  finalCost : r.finalCost = s.finalCost
  numResiduals : r.numResiduals = (d.observations.filter (usable options.minTrackLength d.trackLengths)).length
  meanError : p.meanError s.params = .ok r.meanError

/-- Cannot some solved camera or rotation be read back? -/
def Unreadable (d : RigDataset α) (options : RigOptions α) (v : Values α) : Prop :=
  (∃ i c, d.cameras[i]? = some c ∧ d.Uses options (.camera i) ∧ c.Unreadable v s!"cam/{i}") ∨
    (∃ i j, d.Uses options (.relRotation i j) ∧ Quat.Unreadable v s!"rel_rot/{i}/{j}") ∨
    ∃ i, d.Uses options (.rigRotation i) ∧ Quat.Unreadable v s!"rig_rot/{i}"

theorem refined_of_readBack (hd : d.Valid) (hf : d.formulate options = .ok f) (hsolved : d.Solved options s.params)
    {r : RigResult α} (h : d.readBack f.problem s = .ok r) : d.Refined options f.problem s r := by
  obtain ⟨-, rfl⟩ := (formulate_eq_ok hd).1 hf
  simp only [readBack, bind_eq_ok, pure_eq_ok] at h
  obtain ⟨cameras, hcameras, relativePoses, hrelative, rigPoses, hposes, points, hpoints, meanError, hmean, rfl⟩ := h
  exact
    { cameras := forall₂_of_readEach hcameras fun i c c' hc hread => Values.camera_refined (hsolved.camera i c hc) hread
      relativePoses := forall₂_of_readEach hrelative fun i rig poses hrig hread =>
        forall₂_of_readEach hread fun j m pose hm hread =>
          Values.pose_refined (hsolved.relRotation i rig j m hrig hm) (hsolved.relTrans i rig j m hrig hm) hread
      rigPoses := forall₂_of_readEach hposes fun i snapshot pose hsnapshot hread =>
        Values.pose_refined (hsolved.rigRotation i snapshot hsnapshot) (hsolved.rigTrans i snapshot hsnapshot) hread
      points := forall₂_of_readEach hpoints fun i x y hx hread => Values.point_refined (hsolved.point i x hx) hread
      valid := fun c hc => by
        obtain ⟨x, hx, hread⟩ := exists_of_mem_right (readEach_eq_ok.1 hcameras) hc
        exact Camera.validate_eq_ok.2 (Values.valid_camera (hd.cameras _ (List.fst_mem_of_mem_zipIdx hx)) hread)
      initialCost := rfl
      finalCost := rfl
      numResiduals := by
        rw [← map_sightings, List.length_map]
        simp only [assemble, measurements_eq, List.length_map]
      meanError := hmean }

/-- Solved values are read back unless a camera or a rotation is unreadable. -/
theorem exists_readBack_iff (hd : d.Valid) (hsolved : d.Solved options s.params) {p : Problem α} {e : α}
    (hmean : p.meanError s.params = .ok e) :
    (∃ r, d.readBack p s = .ok r) ↔ ¬d.Unreadable options s.params := by
  simp only [readBack, bind_eq_ok, pure_eq_ok]
  constructor
  · rintro ⟨_, cameras, hcameras, relativePoses, hrelative, rigPoses, hposes, -⟩
      (⟨i, c, hc, -, hbad⟩ | ⟨i, j, hused, hbad⟩ | ⟨i, hused, hbad⟩)
    · exact (Values.exists_camera (hsolved.camera i c hc)).1 (exists_readEach.1 ⟨cameras, hcameras⟩ i c hc) hbad
    · obtain ⟨rig, m, hrig, hm⟩ := exists_mounted_of_uses hd hused
      obtain ⟨poses, hposes⟩ := exists_readEach.1 ⟨relativePoses, hrelative⟩ i rig hrig
      exact (Values.exists_pose (hsolved.relRotation i rig j m hrig hm) (hsolved.relTrans i rig j m hrig hm)).1
        (exists_readEach.1 ⟨poses, hposes⟩ j m hm) hbad
    · obtain ⟨snapshot, hsnapshot⟩ := exists_snapshot_of_uses hused
      exact (Values.exists_pose (hsolved.rigRotation i snapshot hsnapshot) (hsolved.rigTrans i snapshot hsnapshot)).1
        (exists_readEach.1 ⟨rigPoses, hposes⟩ i snapshot hsnapshot) hbad
  · intro hreadable
    obtain ⟨cameras, hcameras⟩ := exists_readEach.2 fun i c hc =>
      (Values.exists_camera (hsolved.camera i c hc)).2 fun hbad =>
        hreadable (.inl ⟨i, c, hc, (hsolved.camera i c hc).used_of_value hbad.exists_value, hbad⟩)
    obtain ⟨relativePoses, hrelative⟩ := exists_readEach.2 fun i (rig : Rig α) hrig =>
      exists_readEach.2 fun j (m : MountedCamera α) hm =>
        have hrotation := hsolved.relRotation i rig j m hrig hm
        (Values.exists_pose (p := m.pose) hrotation (hsolved.relTrans i rig j m hrig hm)).2 fun hbad =>
          hreadable (.inr (.inl ⟨i, j, hrotation.used_of_value hbad.exists_value, hbad⟩))
    obtain ⟨rigPoses, hposes⟩ := exists_readEach.2 fun i (snapshot : Snapshot α) hsnapshot =>
      have hrotation := hsolved.rigRotation i snapshot hsnapshot
      (Values.exists_pose (p := snapshot.pose) hrotation (hsolved.rigTrans i snapshot hsnapshot)).2 fun hbad =>
        hreadable (.inr (.inr ⟨i, hrotation.used_of_value hbad.exists_value, hbad⟩))
    obtain ⟨points, hpoints⟩ := exists_readEach.2 fun i x hx => Values.exists_point (hsolved.point i x hx)
    exact ⟨_, cameras, hcameras, relativePoses, hrelative, rigPoses, hposes, points, hpoints, e, hmean, rfl⟩

/-! ## Refining -/

/-- A result is that of the solved values of the formulation. -/
theorem refined_of_refine (hd : d.Valid)
    (hkeeps : ∀ f, d.formulate options = .ok f → f.problem.CallsKeepLengths optimizer f.initial solver)
    {r : RigResult α} (h : d.refine optimizer options solver = .ok r) :
    ∃ f s, d.formulate options = .ok f ∧ f.problem.solve optimizer f.initial solver = .ok s ∧
      d.Refined options f.problem s r := by
  simp only [refine, bind_eq_ok, mapError_eq_ok] at h
  obtain ⟨f, hf, s, hs, hread⟩ := h
  exact ⟨f, s, hf, hs, refined_of_readBack hd hf (solved_of_solve hd hf (hkeeps f hf) hs) hread⟩

/-- There is no result exactly for the reasons of `RefineFails`. -/
theorem exists_error_refine_iff (hd : d.Valid)
    (hkeeps : ∀ f, d.formulate options = .ok f → f.problem.CallsKeepLengths optimizer f.initial solver) :
    (∃ e, d.refine optimizer options solver = .error e) ↔
      RefineFails (d.formulate options) optimizer solver (d.Unreadable options) := by
  refine exists_error_iff_refineFails hkeeps fun f s hf hs => ?_
  obtain ⟨e, he⟩ := Problem.exists_meanError_of_solve hs
  have hsolved := solved_of_solve hd hf (hkeeps f hf) hs
  rw [exists_error_iff, exists_readBack_iff hd hsolved he, not_not]

/-! ## Optimizers that move values -/

theorem exists_solve_moving (hd : d.Valid) (hloss : options.loss.Admissible)
    (husable : ∃ o ∈ d.observations, usable options.minTrackLength d.trackLengths o = true) (m : Move α)
    (solver : SolveOptions α) :
    ∃ f s, d.formulate options = .ok f ∧ f.problem.solve (.moving m) f.initial solver = .ok s := by
  obtain ⟨f, hf, hsound⟩ := (soundIfAny hd).exists_sound husable
  obtain ⟨s, hs⟩ := hsound.exists_solve_moving hloss m solver
  exact ⟨f, s, hf, hs⟩

/-- Where the initial cost is not small already, what takes part is moved. -/
theorem moved_of_solve [LawfulBEq α] {m : Move α} (hd : d.Valid) (hf : d.formulate options = .ok f)
    (hs : f.problem.solve (.moving m) f.initial solver = .ok s) (hlarge : solver.stopping.minError < s.initialCost)
    {k : RigKey} (hk : d.Uses options k) :
    s.params.block? k = some (m.value (BlockKey.name k) (d.blockSpec options k).value) := by
  obtain ⟨-, rfl⟩ := (formulate_eq_ok hd).1 hf
  exact Measurement.moved_of_solve hs hlarge ((mem_keys_iff_uses hd).2 hk)

/-- Refining succeeds with an optimizer that moves values, if moved cameras are valid and rotations stay. -/
theorem exists_refine_moving {m : Move α} (hd : d.Valid) (hloss : options.loss.Admissible)
    (husable : ∃ o ∈ d.observations, usable options.minTrackLength d.trackLengths o = true)
    (hcameras : ∀ (i : Nat) (c : Camera α), d.cameras[i]? = some c →
      (⟨c.model, m.value s!"cam/{i}" c.params⟩ : Camera α).Valid)
    (hmounted : ∀ (i : Nat) (rig : Rig α) (j : Nat) (mounted : MountedCamera α), d.rigs[i]? = some rig →
      rig.cameras[j]? = some mounted → mounted.pose.rot.IsDirection ∧
        m.value s!"rel_rot/{i}/{j}" mounted.pose.rot.toList = mounted.pose.rot.toList)
    (hsnapshots : ∀ (i : Nat) (snapshot : Snapshot α), d.snapshots[i]? = some snapshot → snapshot.pose.rot.IsDirection ∧
      m.value s!"rig_rot/{i}" snapshot.pose.rot.toList = snapshot.pose.rot.toList) (solver : SolveOptions α) :
    ∃ r, d.refine (.moving m) options solver = .ok r := by
  by_contra hnone
  rw [← exists_error_iff, exists_error_refine_iff hd fun f _ => Problem.callsKeepLengths_moving] at hnone
  obtain ⟨f, hf, hsound⟩ := (soundIfAny hd).exists_sound husable
  rw [hf] at hnone
  refine hsound.not_refineFails_moving hloss (fun s hs hbad => ?_) hnone
  obtain ⟨-, rfl⟩ := (formulate_eq_ok hd).1 hf
  have hvalue : ∀ k, d.Uses options k →
      ∃ y, s.params.block? k = some y ∧ m.Moves (BlockKey.name k) (d.blockSpec options k).value y :=
    fun k hk => moves_of_solve hs ((mem_keys_iff_uses hd).2 hk)
  rcases hbad with ⟨i, c, hc, hused, hbad⟩ | ⟨i, j, hused, hbad⟩ | ⟨i, hused, hbad⟩
  · obtain ⟨y, hy, hmoves⟩ := hvalue _ hused
    rw [blockSpec_camera hc] at hmoves
    rcases hmoves with rfl | rfl
    · exact (hd.cameras c (List.mem_of_getElem? hc)).not_unreadable hy hbad
    · exact (hcameras i c hc).not_unreadable hy hbad
  · obtain ⟨rig, mounted, hrig, hmount⟩ := exists_mounted_of_uses hd hused
    obtain ⟨hdirection, hstays⟩ := hmounted i rig j mounted hrig hmount
    obtain ⟨y, hy, hmoves⟩ := hvalue _ hused
    rw [blockSpec_relRotation (mounted?_eq hrig hmount)] at hmoves
    obtain rfl : y = mounted.pose.rot.toList := hmoves.elim id fun h => h.trans hstays
    exact hdirection.not_unreadable hy hbad
  · obtain ⟨snapshot, hsnapshot⟩ := exists_snapshot_of_uses hused
    obtain ⟨hdirection, hstays⟩ := hsnapshots i snapshot hsnapshot
    obtain ⟨y, hy, hmoves⟩ := hvalue _ hused
    rw [blockSpec_rigRotation hsnapshot] at hmoves
    obtain rfl : y = snapshot.pose.rot.toList := hmoves.elim id fun h => h.trans hstays
    exact hdirection.not_unreadable hy hbad

/-- Refining succeeds with an optimizer that changes nothing. -/
theorem exists_refine_still (hd : d.Valid) (hloss : options.loss.Admissible)
    (husable : ∃ o ∈ d.observations, usable options.minTrackLength d.trackLengths o = true)
    (hmounted : ∀ rig ∈ d.rigs, ∀ m ∈ rig.cameras, m.pose.rot.IsDirection)
    (hsnapshots : ∀ snapshot ∈ d.snapshots, snapshot.pose.rot.IsDirection) (solver : SolveOptions α) :
    ∃ r, d.refine .still options solver = .ok r :=
  exists_refine_moving hd hloss husable (fun _ c hc => hd.cameras c (List.mem_of_getElem? hc))
    (fun _ rig _ m hrig hm => ⟨hmounted rig (List.mem_of_getElem? hrig) m (List.mem_of_getElem? hm), rfl⟩)
    (fun _ snapshot hsnapshot => ⟨hsnapshots snapshot (List.mem_of_getElem? hsnapshot), rfl⟩) solver

/-- Refining succeeds with an optimizer that writes a parameter of a camera, if the camera stays valid. -/
theorem exists_refine_write (hd : d.Valid) (hloss : options.loss.Admissible)
    (husable : ∃ o ∈ d.observations, usable options.minTrackLength d.trackLengths o = true)
    (hmounted : ∀ rig ∈ d.rigs, ∀ m ∈ rig.cameras, m.pose.rot.IsDirection)
    (hsnapshots : ∀ snapshot ∈ d.snapshots, snapshot.pose.rot.IsDirection) {i : Nat} {c : Camera α}
    (hc : d.cameras[i]? = some c) {j : Nat} {a : α} (hvalid : (⟨c.model, c.params.set j a⟩ : Camera α).Valid)
    (solver : SolveOptions α) : ∃ r, d.refine (.moving (.write s!"cam/{i}" j a)) options solver = .ok r := by
  have hkey : Function.Injective RigKey.camera := fun _ _ => RigKey.camera.inj
  have hother : ∀ k, k ≠ .camera i → ∀ x, (Move.write s!"cam/{i}" j a).value (BlockKey.name (k : RigKey)) x = x :=
    fun k => Move.value_write_key
  refine exists_refine_moving hd hloss husable (Camera.valid_write hkey hd.cameras hc hvalid)
    (fun i' rig j' m hrig hm => ?_) (fun i' snapshot hsnapshot => ?_) solver
  · exact ⟨hmounted rig (List.mem_of_getElem? hrig) m (List.mem_of_getElem? hm), hother (.relRotation i' j') nofun _⟩
  · exact ⟨hsnapshots snapshot (List.mem_of_getElem? hsnapshot), hother (.rigRotation i') nofun _⟩

end RigDataset

end MultiView
