import MultiView.Rig.Formulation
import MultiView.Proofs.Reconstruction.WellFormed
import MultiView.Proofs.Rig.Dataset

/-!
# The draft of rig adjustment

A valid dataset's draft holds the blocks of `RigDataset.keys` and the measurements of `RigDataset.measurements`. A
usable observation adds its point and its measurement (`run_addObservation`), an image that has usable observations
first adds its camera and the camera's pose on the rig (`run_addImage`), and a snapshot that has such images first adds
its rig pose (`run_addSnapshot`).
-/

namespace MultiView

open Measurement Drafting

/-- May a block be asked for again? The blocks of a rig pose belong to one snapshot. -/
def RigKey.again : RigKey → Bool
  | .rigRotation _ | .rigTrans _ => false
  | .camera _ | .relRotation _ _ | .relTrans _ _ | .point _ => true

instance : LawfulBlockKey RigKey where
  name_injective j k h := by
    cases j <;> cases k <;> simp [BlockKey.name, ← String.toList_inj, toString] at h
    case relRotation.relRotation | relTrans.relTrans =>
      obtain ⟨rfl, rfl⟩ := digits_slash_injective h
      rfl
    all_goals rw [digits_injective h]

namespace RigDataset

variable {α : Type} (d : RigDataset α) (options : RigOptions α)

/-! ## Blocks and measurements -/

/-- The camera at a position of a rig. -/
def mounted? (rig mount : Nat) : Option (MountedCamera α) := do
  let r ← d.rigs[rig]?
  r.cameras[mount]?

/-- The index of the camera at a position of a rig; any index where there is no camera. -/
def cameraAt (rig mount : Nat) : Nat := ((d.mounted? rig mount).map (·.camera)).getD 0

/-- The contents of a block. -/
def blockSpec : RigKey → BlockSpec α
  | .rigRotation i =>
    .orBlank (d.snapshots[i]?.map fun s => .rotation (options.constantRigPoses.contains i) s.pose)
  | .rigTrans i => .orBlank (d.snapshots[i]?.map fun s => .trans (options.constantRigPoses.contains i) s.pose)
  | .camera i => .orBlank (d.cameras[i]?.map (.camera options.refine))
  | .relRotation r c => .orBlank ((d.mounted? r c).map fun m => .rotation (isRelativeConstant options c) m.pose)
  | .relTrans r c => .orBlank ((d.mounted? r c).map fun m => .trans (isRelativeConstant options c) m.pose)
  | .point i => .orBlank (d.points[i]?.map (.point (options.constantPoints.contains i)))

/-- The observations of an image that take part. -/
def usableObservations (image : SnapshotImage α) : List (Observation α) :=
  image.observations.filter (usable options.minTrackLength d.trackLengths)

/-- The images of a snapshot that have observations that take part. -/
def usableImages (s : Snapshot α) : List (SnapshotImage α) :=
  s.images.filter fun image => image.observations.any (usable options.minTrackLength d.trackLengths)

/-- The measurement of an observation in an image of the snapshot at a position. -/
def measurement (index : Nat) (s : Snapshot α) (image : SnapshotImage α) (o : Observation α) :
    Measurement RigKey α where
  factor := .rig (Camera.modelAt d.cameras (d.cameraAt s.rig image.mount)) o.uv
  reads := [.rigRotation index, .rigTrans index, .relRotation s.rig image.mount, .relTrans s.rig image.mount,
    .point o.point, .camera (d.cameraAt s.rig image.mount)]

def imageMeasurements (index : Nat) (s : Snapshot α) (image : SnapshotImage α) : List (Measurement RigKey α) :=
  (d.usableObservations options image).map (d.measurement index s image)

def snapshotMeasurements (index : Nat) (s : Snapshot α) : List (Measurement RigKey α) :=
  (d.usableImages options s).flatMap (d.imageMeasurements options index s)

/-- The measurements of all snapshots, in order. -/
def measurements : List (Measurement RigKey α) :=
  d.snapshots.zipIdx.flatMap fun (s, i) => d.snapshotMeasurements options i s

/-- The blocks that a usable image asks for, in order. -/
def imageKeys (s : Snapshot α) (image : SnapshotImage α) : List RigKey :=
  .camera (d.cameraAt s.rig image.mount) :: ([.relRotation s.rig image.mount, .relTrans s.rig image.mount] ++
    (d.usableObservations options image).map fun o => .point o.point)

/-- The blocks that a snapshot asks for, in order. -/
def snapshotKeys (index : Nat) (s : Snapshot α) : List RigKey :=
  match d.usableImages options s with
  | [] => []
  | images => [.rigRotation index, .rigTrans index] ++ images.flatMap (d.imageKeys options s)

/-- The blocks of all snapshots, each where it is first asked for. -/
def keys : List RigKey := addKeys [] (d.snapshots.zipIdx.flatMap fun (s, i) => d.snapshotKeys options i s)

/-- The draft of keys and measurements. -/
abbrev draft (ks : List RigKey) (ms : List (Measurement RigKey α)) : Draft RigKey α :=
  Draft.of (d.blockSpec options) options.loss RigKey.again ks ms

variable {d options} {ks js : List RigKey} {ms : List (Measurement RigKey α)}

theorem blockSpec_rigRotation {i : Nat} {s : Snapshot α} (h : d.snapshots[i]? = some s) :
    d.blockSpec options (.rigRotation i) = .rotation (options.constantRigPoses.contains i) s.pose := by
  simp [blockSpec, h, BlockSpec.orBlank]

theorem blockSpec_rigTrans {i : Nat} {s : Snapshot α} (h : d.snapshots[i]? = some s) :
    d.blockSpec options (.rigTrans i) = .trans (options.constantRigPoses.contains i) s.pose := by
  simp [blockSpec, h, BlockSpec.orBlank]

theorem blockSpec_camera {i : Nat} {c : Camera α} (h : d.cameras[i]? = some c) :
    d.blockSpec options (.camera i) = .camera options.refine c := by
  simp [blockSpec, h, BlockSpec.orBlank]

theorem blockSpec_relRotation {rig mount : Nat} {m : MountedCamera α} (h : d.mounted? rig mount = some m) :
    d.blockSpec options (.relRotation rig mount) = .rotation (isRelativeConstant options mount) m.pose := by
  simp [blockSpec, h, BlockSpec.orBlank]

theorem blockSpec_relTrans {rig mount : Nat} {m : MountedCamera α} (h : d.mounted? rig mount = some m) :
    d.blockSpec options (.relTrans rig mount) = .trans (isRelativeConstant options mount) m.pose := by
  simp [blockSpec, h, BlockSpec.orBlank]

theorem blockSpec_point {i : Nat} {p : Vec3 α} (h : d.points[i]? = some p) :
    d.blockSpec options (.point i) = .point (options.constantPoints.contains i) p := by
  simp [blockSpec, h, BlockSpec.orBlank]

theorem cameraAt_eq {rig mount : Nat} {m : MountedCamera α} (h : d.mounted? rig mount = some m) :
    d.cameraAt rig mount = m.camera := by
  simp [cameraAt, h]

/-! ## Observations -/

/-- The ids of two blocks. -/
def pairIds (ks : List RigKey) (rotation trans : RigKey) : Nat × Nat := (ks.idxOf rotation, ks.idxOf trans)

/-- A rig pose, a camera and its pose on the rig are among the keys. -/
structure Ready (index rig mount camera : Nat) (ks : List RigKey) : Prop where
  rigRotation : .rigRotation index ∈ ks
  rigTrans : .rigTrans index ∈ ks
  relRotation : .relRotation rig mount ∈ ks
  relTrans : .relTrans rig mount ∈ ks
  camera : .camera camera ∈ ks

theorem Ready.extend {index rig mount camera : Nat} (h : Ready index rig mount camera ks) (hext : ks <+: js) :
    Ready index rig mount camera js where
  rigRotation := hext.subset h.rigRotation
  rigTrans := hext.subset h.rigTrans
  relRotation := hext.subset h.relRotation
  relTrans := hext.subset h.relTrans
  camera := hext.subset h.camera

theorem reads_subset {index : Nat} {s : Snapshot α} {image : SnapshotImage α} {o : Observation α}
    (h : Ready index s.rig image.mount (d.cameraAt s.rig image.mount) ks) (ho : .point o.point ∈ ks) :
    (d.measurement index s image o).reads ⊆ ks := by
  simp [measurement, List.cons_subset, h.rigRotation, h.rigTrans, h.relRotation, h.relTrans, ho, h.camera]

/-- The blocks and the measurements of an observation, if it is usable. -/
theorem run_addObservation (options : RigOptions α) {index : Nat} {s : Snapshot α} {image : SnapshotImage α}
    {o : Observation α} (h : Ready index s.rig image.mount (d.cameraAt s.rig image.mount) ks) (hw : Within ms ks)
    (ho : o.point < d.points.length) :
    (d.addObservation options d.trackLengths (Camera.modelAt d.cameras (d.cameraAt s.rig image.mount))
        (pairIds ks (.rigRotation index) (.rigTrans index))
        (pairIds ks (.relRotation s.rig image.mount) (.relTrans s.rig image.mount))
        (ks.idxOf (.camera (d.cameraAt s.rig image.mount))) o).run (d.draft options ks ms) =
      if usable options.minTrackLength d.trackLengths o then
        .ok ((), d.draft options (addKey ks (.point o.point)) (ms ++ [d.measurement index s image o]))
      else .ok ((), d.draft options ks ms) := by
  have htracks : d.trackLengths.length = d.points.length := length_trackLengths _ _
  have hpoint : d.points[o.point]? = some d.points[o.point] := List.getElem?_eq_getElem ho
  have hext : ks <+: addKey ks (.point o.point) := prefix_addKey ks (.point o.point)
  have hshare : (sharePoint (.point o.point) (options.constantPoints.contains o.point) d.points o.point).run
      (d.draft options ks ms) = _ := run_sharePoint hw rfl hpoint (blockSpec_point hpoint)
  have hrun : (addResidual (d.measurement index s image o).factor
      ((d.measurement index s image o).reads.map (addKey ks (.point o.point)).idxOf) options.loss).run
        (d.draft options (addKey ks (.point o.point)) ms) = _ := run_addResidual _
  unfold addObservation
  rw [StateT.run_bind, run_isUsable (htracks ▸ ho), ok_bind]
  cases hu : usable options.minTrackLength d.trackLengths o with
  | false => rfl
  | true =>
    unfold pairIds
    simp only [if_true, StateT.run_bind, hshare, ok_bind]
    rw [← idxOf_extend hext h.rigRotation, ← idxOf_extend hext h.rigTrans, ← idxOf_extend hext h.relRotation,
      ← idxOf_extend hext h.relTrans, ← idxOf_extend hext h.camera]
    exact hrun

/-- All observations of an image, once the other blocks are there. -/
theorem run_observations (options : RigOptions α) {index : Nat} {s : Snapshot α} {image : SnapshotImage α}
    (h : Ready index s.rig image.mount (d.cameraAt s.rig image.mount) ks) (hw : Within ms ks)
    (hos : ∀ o ∈ image.observations, o.point < d.points.length) :
    (image.observations.forM (d.addObservation options d.trackLengths
        (Camera.modelAt d.cameras (d.cameraAt s.rig image.mount)) (pairIds ks (.rigRotation index) (.rigTrans index))
        (pairIds ks (.relRotation s.rig image.mount) (.relTrans s.rig image.mount))
        (ks.idxOf (.camera (d.cameraAt s.rig image.mount))))).run (d.draft options ks ms) =
      .ok ((), d.draft options (addKeys ks ((d.usableObservations options image).map fun o => .point o.point))
        (ms ++ d.imageMeasurements options index s image)) := by
  rw [imageMeasurements, usableObservations, ← flatMap_ite_singleton, ← flatMap_ite_singleton]
  refine run_forM_within _ _ hw ?_ ?_
  · intro o ho js ms hext hw
    have hrun := run_addObservation options (h.extend hext) hw (hos o ho)
    unfold pairIds at hrun ⊢
    rw [idxOf_extend hext h.rigRotation, idxOf_extend hext h.rigTrans, idxOf_extend hext h.relRotation,
      idxOf_extend hext h.relTrans, idxOf_extend hext h.camera] at hrun
    rw [hrun]
    cases usable options.minTrackLength d.trackLengths o with
    | false => simp
    | true => rfl
  · intro o ho js hext hpoint m hm
    cases hu : usable options.minTrackLength d.trackLengths o with
    | false => simp [hu] at hm
    | true =>
      simp only [hu, if_true, List.mem_singleton] at hm hpoint
      rw [hm]
      exact reads_subset (h.extend hext) (hpoint List.mem_cons_self)

/-! ## Images -/

/-- A camera that exists on a rig that exists. -/
theorem mounted?_eq {rig mount : Nat} {r : Rig α} {m : MountedCamera α} (hr : d.rigs[rig]? = some r)
    (hm : r.cameras[mount]? = some m) : d.mounted? rig mount = some m := by
  simp [mounted?, hr, hm]

theorem ready_of_subset {index : Nat} {s : Snapshot α} {image : SnapshotImage α}
    (hrotation : .rigRotation index ∈ ks) (htrans : .rigTrans index ∈ ks) (hsub : d.imageKeys options s image ⊆ ks) :
    Ready index s.rig image.mount (d.cameraAt s.rig image.mount) ks := by
  simp only [imageKeys, List.cons_append, List.nil_append, List.cons_subset] at hsub
  exact ⟨hrotation, htrans, hsub.2.1, hsub.2.2.1, hsub.1⟩

theorem within_imageMeasurements {index : Nat} {s : Snapshot α} {image : SnapshotImage α}
    (hrotation : .rigRotation index ∈ ks) (htrans : .rigTrans index ∈ ks) (hsub : d.imageKeys options s image ⊆ ks) :
    Within (d.imageMeasurements options index s image) ks := by
  intro m hm
  obtain ⟨o, ho, rfl⟩ := List.mem_map.1 hm
  refine reads_subset (ready_of_subset hrotation htrans hsub) (hsub ?_)
  exact List.mem_cons_of_mem _ (List.mem_append_right _ (List.mem_map_of_mem ho))

theorem run_addImage (options : RigOptions α) {index : Nat} {s : Snapshot α} {rig : Rig α} {image : SnapshotImage α}
    (hrig : d.rigs[s.rig]? = some rig) (hcameras : ∀ m ∈ rig.cameras, m.camera < d.cameras.length)
    (himage : d.ValidImage rig image) (hrotation : .rigRotation index ∈ ks) (htrans : .rigTrans index ∈ ks)
    (hw : Within ms ks) :
    (d.addImage options d.trackLengths s rig (pairIds ks (.rigRotation index) (.rigTrans index)) image).run
        (d.draft options ks ms) =
      .ok ((), d.draft options (addKeys ks (d.imageKeys options s image))
        (ms ++ d.imageMeasurements options index s image)) := by
  obtain ⟨m, hm⟩ : ∃ m, rig.cameras[image.mount]? = some m := ⟨_, List.getElem?_eq_getElem himage.mount⟩
  have hmounted := mounted?_eq hrig hm
  obtain ⟨camera, hcamera⟩ : ∃ c, d.cameras[m.camera]? = some c :=
    ⟨_, List.getElem?_eq_getElem (hcameras m (List.mem_of_getElem? hm))⟩
  have hshare : (share (.camera m.camera) (pure (.camera options.refine camera))).run (d.draft options ks ms) = _ :=
    run_share hw rfl (by rw [blockSpec_camera hcamera]; rfl)
  have hext : ks <+: addKey ks (.camera m.camera) := prefix_addKey ks (.camera m.camera)
  have hmem : .camera m.camera ∈ addKey ks (.camera m.camera) := by simp
  have hpose : (sharePose (.relRotation s.rig image.mount) (.relTrans s.rig image.mount)
      (isRelativeConstant options image.mount) m.pose).run (d.draft options (addKey ks (.camera m.camera)) ms) = _ :=
    run_sharePose (hw.extend hext) ⟨rfl, rfl⟩ (blockSpec_relRotation hmounted) (blockSpec_relTrans hmounted)
  have hext' := prefix_addKeys (addKey ks (.camera m.camera))
    [.relRotation s.rig image.mount, .relTrans s.rig image.mount]
  have hready : Ready index s.rig image.mount (d.cameraAt s.rig image.mount)
      (addKeys (addKey ks (.camera m.camera)) [.relRotation s.rig image.mount, .relTrans s.rig image.mount]) := by
    rw [cameraAt_eq hmounted]
    constructor <;> simp [hrotation, htrans]
  have hobservations := run_observations options hready ((hw.extend hext).extend hext') himage.point
  -- the ids were given out for shorter lists of keys, where the positions are the same
  unfold pairIds at hobservations ⊢
  rw [cameraAt_eq hmounted, Camera.modelAt_eq hcamera, idxOf_extend (hext.trans hext') hrotation,
    idxOf_extend (hext.trans hext') htrans, idxOf_extend hext' hmem] at hobservations
  rw [imageKeys, cameraAt_eq hmounted, addKeys_cons, addKeys_append]
  simp only [addImage, StateT.run_bind, run_item hm, run_item hcamera, hshare, hpose, ok_bind]
  exact hobservations

/-- A snapshot's usable images, once its rig pose is there. -/
theorem run_images (options : RigOptions α) {index : Nat} {s : Snapshot α} {rig : Rig α}
    (hrig : d.rigs[s.rig]? = some rig) (hcameras : ∀ m ∈ rig.cameras, m.camera < d.cameras.length)
    {images : List (SnapshotImage α)}
    (himages : ∀ image ∈ images, d.ValidImage rig image) (hrotation : .rigRotation index ∈ ks)
    (htrans : .rigTrans index ∈ ks) (hw : Within ms ks) :
    (images.forM (d.addImage options d.trackLengths s rig (pairIds ks (.rigRotation index) (.rigTrans index)))).run
        (d.draft options ks ms) =
      .ok ((), d.draft options (addKeys ks (images.flatMap (d.imageKeys options s)))
        (ms ++ images.flatMap (d.imageMeasurements options index s))) := by
  refine run_forM_within _ _ hw ?_ ?_
  · intro image himage js ms hext hw
    have hrun := run_addImage options hrig hcameras (himages image himage) (hext.subset hrotation)
      (hext.subset htrans) hw
    unfold pairIds at hrun ⊢
    rwa [idxOf_extend hext hrotation, idxOf_extend hext htrans] at hrun
  · intro image _ js hext hsub
    exact within_imageMeasurements (hext.subset hrotation) (hext.subset htrans) hsub

/-! ## Snapshots -/

theorem snapshotKeys_of_ne_nil {index : Nat} {s : Snapshot α} (h : d.usableImages options s ≠ []) :
    d.snapshotKeys options index s = [.rigRotation index, .rigTrans index] ++
      (d.usableImages options s).flatMap (d.imageKeys options s) := by
  unfold snapshotKeys
  split
  · next hnil => exact absurd hnil h
  · rfl

theorem mem_snapshotKeys {index : Nat} {s : Snapshot α} {k : RigKey} :
    k ∈ d.snapshotKeys options index s ↔ d.usableImages options s ≠ [] ∧
      (k = .rigRotation index ∨ k = .rigTrans index ∨
        ∃ image ∈ d.usableImages options s, k ∈ d.imageKeys options s image) := by
  by_cases hnil : d.usableImages options s = []
  · simp [snapshotKeys, hnil]
  · rw [snapshotKeys_of_ne_nil hnil]
    simp [hnil]

theorem within_snapshotMeasurements {index : Nat} {s : Snapshot α} (hsub : d.snapshotKeys options index s ⊆ ks) :
    Within (d.snapshotMeasurements options index s) ks := by
  intro m hm
  obtain ⟨image, himage, hm⟩ := List.mem_flatMap.1 hm
  have hne : d.usableImages options s ≠ [] := List.ne_nil_of_mem himage
  have hrotation := hsub (mem_snapshotKeys.2 ⟨hne, .inl rfl⟩)
  have htrans := hsub (mem_snapshotKeys.2 ⟨hne, .inr (.inl rfl)⟩)
  have hkeys : d.imageKeys options s image ⊆ ks :=
    fun k hk => hsub (mem_snapshotKeys.2 ⟨hne, .inr (.inr ⟨image, himage, hk⟩)⟩)
  exact within_imageMeasurements hrotation htrans hkeys m hm

theorem run_isImageUsable {image : SnapshotImage α} (hos : ∀ o ∈ image.observations, o.point < d.points.length)
    (t : Draft RigKey α) : (isImageUsable options d.trackLengths image).run t =
      .ok (image.observations.any (usable options.minTrackLength d.trackLengths), t) := by
  have htracks : d.trackLengths.length = d.points.length := length_trackLengths _ _
  exact run_anyM fun o ho => run_isUsable (htracks ▸ hos o ho) t

theorem run_addSnapshot {index : Nat} {s : Snapshot α} {rig : Rig α} (hindex : d.snapshots[index]? = some s)
    (hrig : d.rigs[s.rig]? = some rig) (hcameras : ∀ m ∈ rig.cameras, m.camera < d.cameras.length)
    (himages : ∀ image ∈ s.images, d.ValidImage rig image) (hw : Within ms ks)
    (hrotation : .rigRotation index ∉ ks) (htrans : .rigTrans index ∉ ks) :
    (d.addSnapshot options d.trackLengths index s).run (d.draft options ks ms) =
      .ok ((), d.draft options (addKeys ks (d.snapshotKeys options index s))
        (ms ++ d.snapshotMeasurements options index s)) := by
  have hany : ∀ t, (s.images.anyM (isImageUsable options d.trackLengths)).run t =
      .ok (decide (d.usableImages options s ≠ []), t) := by
    intro t
    rw [run_anyM fun image hi => run_isImageUsable (himages image hi).point t]
    congr 2
    rw [Bool.eq_iff_iff]
    simp [usableImages]
  have hfilter : ∀ t, (s.images.filterM (isImageUsable options d.trackLengths)).run t =
      .ok (d.usableImages options s, t) :=
    fun t => run_filterM fun image hi => run_isImageUsable (himages image hi).point t
  unfold addSnapshot
  rw [StateT.run_bind, run_item hrig, ok_bind, StateT.run_bind, hany, ok_bind]
  by_cases hnil : d.usableImages options s = []
  · simp [hnil, snapshotKeys, snapshotMeasurements]
  · have hpose : (addPose (.rigRotation index) (.rigTrans index) (options.constantRigPoses.contains index) s.pose).run
        (d.draft options ks ms) = _ :=
      run_addPose hw hrotation htrans (by simp) ⟨rfl, rfl⟩ (blockSpec_rigRotation hindex) (blockSpec_rigTrans hindex)
    have himages' : ∀ image ∈ d.usableImages options s, d.ValidImage rig image :=
      fun image hi => himages image (List.mem_of_mem_filter hi)
    have hext : ks <+: addKeys ks [.rigRotation index, .rigTrans index] := prefix_addKeys _ _
    have hrotation' : .rigRotation index ∈ addKeys ks [.rigRotation index, .rigTrans index] := by simp
    have htrans' : .rigTrans index ∈ addKeys ks [.rigRotation index, .rigTrans index] := by simp
    have himage := run_images options hrig hcameras himages' hrotation' htrans' (hw.extend hext)
    rw [snapshotKeys_of_ne_nil hnil, addKeys_append]
    simp only [ne_eq, hnil, not_false_eq_true, decide_true, if_true, StateT.run_bind, hpose, hfilter, ok_bind]
    exact himage

/-- Blocks of a rig pose are asked for by one snapshot only. -/
theorem rigPose_notMem_snapshotKeys (options : RigOptions α) {i j : Nat} (h : j ≠ i) (s : Snapshot α) :
    .rigRotation j ∉ d.snapshotKeys options i s ∧ .rigTrans j ∉ d.snapshotKeys options i s := by
  simp [mem_snapshotKeys, imageKeys, h]

/-! ## Datasets -/

/-- The draft of a whole dataset. -/
theorem run_snapshots [Scalar α] (hd : d.Valid) :
    (d.snapshots.zipIdx.forM fun (s, i) => d.addSnapshot options d.trackLengths i s).run .empty =
      .ok ((), d.draft options (d.keys options) (d.measurements options)) := by
  refine run_zipIdx_forM (d.snapshotKeys options) (d.snapshotMeasurements options)
    (fun i => [.rigRotation i, .rigTrans i]) ?_ ?_ ?_
  · intro i s hindex ks ms hw hfresh
    obtain ⟨rig, hrig, himages⟩ := hd.images s (List.mem_of_getElem? hindex)
    have hcameras := (hd.mounted rig (List.mem_of_getElem? hrig)).2
    exact run_addSnapshot hindex hrig hcameras himages hw (hfresh _ (by simp)) (hfresh _ (by simp))
  · intro i s ks hkeys
    exact within_snapshotMeasurements hkeys
  · intro i j s hne k hk
    obtain ⟨hrotation, htrans⟩ := rigPose_notMem_snapshotKeys options hne s
    rcases List.mem_pair.1 hk with rfl | rfl
    · exact hrotation
    · exact htrans

end RigDataset

end MultiView
