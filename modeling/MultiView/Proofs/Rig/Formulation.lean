import MultiView.Proofs.Rig.Drafting

/-!
# The problem of rig adjustment

A valid dataset gives a problem as soon as an observation is usable (`RigDataset.formulate_eq`), which is sound
(`RigDataset.soundIfAny`). Its residual blocks are those of the usable observations, in order, its blocks are those that
usable observations need, each once, and which of them are held constant depends on the options only, not on the
observation that asked for a block first (`RigDataset.formulate_blocks`).
-/

namespace MultiView

open Measurement

/-- Is a block held constant as a whole if a condition holds, and free if it does not? -/
def ParamBlock.HeldIff {α : Type} (b : ParamBlock α) (condition : Prop) : Prop :=
  (b.fixed.isAllFixed b.dim = true ↔ condition) ∧ (b.fixed.isEmpty = true ↔ ¬condition)

theorem ParamBlock.heldIff_of_mask {α : Type} {b : ParamBlock α} {constant : Bool} {condition : Prop}
    (hdim : 0 < b.dim) (hfixed : b.fixed = BlockSpec.mask constant b.dim) (h : constant = true ↔ condition) :
    b.HeldIff condition := by
  rw [HeldIff, hfixed, ← h]
  cases constant with
  | false =>
    have hnot : FixedMask.free.isAllFixed b.dim = false := by
      rw [Bool.eq_false_iff, Ne, FixedMask.isAllFixed_iff]
      intro hall
      exact absurd (hall 0 hdim) (by simp)
    simpa [BlockSpec.mask] using ⟨hnot, rfl⟩
  | true =>
    have hall : (FixedMask.all b.dim).isAllFixed b.dim = true := by simp [FixedMask.isAllFixed_iff]
    have hnot : (FixedMask.all b.dim).isEmpty = false := by
      simpa [FixedMask.isEmpty, FixedMask.all] using Nat.ne_of_gt hdim
    simpa [BlockSpec.mask] using ⟨hall, hnot⟩

namespace RigDataset

variable {α : Type} {d : RigDataset α} {options : RigOptions α}

/-! ## The plan -/

/-- The usable observations, each with its image and its snapshot, and the snapshot's position. -/
def sightings (d : RigDataset α) (asked : Nat) : List (Nat × Snapshot α × SnapshotImage α × Observation α) :=
  d.snapshots.zipIdx.flatMap fun (s, i) => s.images.flatMap fun image =>
    (image.observations.filter (usable asked d.trackLengths)).map fun o => (i, s, image, o)

theorem mem_sightings {asked : Nat} {x : Nat × Snapshot α × SnapshotImage α × Observation α} :
    x ∈ d.sightings asked ↔ d.snapshots[x.1]? = some x.2.1 ∧ x.2.2.1 ∈ x.2.1.images ∧
      x.2.2.2 ∈ x.2.2.1.observations.filter (usable asked d.trackLengths) := by
  obtain ⟨i, s, image, o⟩ := x
  rw [sightings, List.mem_flatMap]
  constructor
  · rintro ⟨⟨s', j⟩, hindex, hx⟩
    obtain ⟨image', himage, hx⟩ := List.mem_flatMap.1 hx
    obtain ⟨o', ho, hx⟩ := List.mem_map.1 hx
    obtain ⟨rfl, rfl, rfl, rfl⟩ : j = i ∧ s' = s ∧ image' = image ∧ o' = o := by simpa using hx
    exact ⟨List.mk_mem_zipIdx_iff_getElem?.1 hindex, himage, ho⟩
  · rintro ⟨hindex, himage, ho⟩
    exact ⟨(s, i), List.mk_mem_zipIdx_iff_getElem?.2 hindex,
      List.mem_flatMap.2 ⟨image, himage, List.mem_map_of_mem ho⟩⟩

/-- The observations of sightings are the usable ones, in order. -/
theorem map_sightings (asked : Nat) : (d.sightings asked).map (·.2.2.2) =
    d.observations.filter (usable asked d.trackLengths) := by
  rw [observations, List.filter_flatMap, ← flatMap_zipIdx, sightings, List.map_flatMap]
  simp only [List.map_flatMap, List.filter_flatMap, List.map_map, Function.comp_def, List.map_id']

/-- Images without usable observations have no measurements. -/
theorem snapshotMeasurements_eq (index : Nat) (s : Snapshot α) : d.snapshotMeasurements options index s =
    s.images.flatMap (d.imageMeasurements options index s) := by
  refine flatMap_filter (fun image hnone => ?_) s.images
  rw [imageMeasurements, usableObservations, List.map_eq_nil_iff, List.filter_eq_nil_iff]
  intro o ho
  exact List.any_eq_false.1 hnone o ho

theorem measurements_eq : d.measurements options = (d.sightings options.minTrackLength).map fun x =>
    d.measurement x.1 x.2.1 x.2.2.1 x.2.2.2 := by
  simp only [measurements, sightings, snapshotMeasurements_eq, List.map_flatMap, List.map_map]
  rfl

theorem mem_measurements {m : Measurement RigKey α} : m ∈ d.measurements options ↔
    ∃ x ∈ d.sightings options.minTrackLength, d.measurement x.1 x.2.1 x.2.2.1 x.2.2.2 = m := by
  rw [measurements_eq, List.mem_map]

theorem mem_usableImages {s : Snapshot α} {image : SnapshotImage α} : image ∈ d.usableImages options s ↔
    image ∈ s.images ∧ ∃ o, o ∈ d.usableObservations options image := by
  simp only [usableImages, usableObservations, List.mem_filter, List.any_eq_true]

theorem mem_imageKeys {s : Snapshot α} {image : SnapshotImage α} {k : RigKey} : k ∈ d.imageKeys options s image ↔
    k = .camera (d.cameraAt s.rig image.mount) ∨ k = .relRotation s.rig image.mount ∨
      k = .relTrans s.rig image.mount ∨ ∃ o ∈ d.usableObservations options image, .point o.point = k := by
  simp only [imageKeys, List.cons_append, List.nil_append, List.mem_cons, List.mem_map]

theorem mem_reads {index : Nat} {s : Snapshot α} {image : SnapshotImage α} {o : Observation α} {k : RigKey} :
    k ∈ (d.measurement index s image o).reads ↔ k = .rigRotation index ∨ k = .rigTrans index ∨
      k = .relRotation s.rig image.mount ∨ k = .relTrans s.rig image.mount ∨ k = .point o.point ∨
        k = .camera (d.cameraAt s.rig image.mount) := by
  simp only [measurement, List.mem_cons, List.not_mem_nil, or_false]

/-- A snapshot asks for the blocks that the observations of its usable images read. -/
theorem mem_snapshotKeys_iff_reads {index : Nat} {s : Snapshot α} {k : RigKey} :
    k ∈ d.snapshotKeys options index s ↔ ∃ image ∈ s.images, ∃ o ∈ d.usableObservations options image,
      k ∈ (d.measurement index s image o).reads := by
  simp only [mem_snapshotKeys, mem_reads, mem_imageKeys]
  constructor
  · rintro ⟨hne, hk⟩
    obtain ⟨image, himage⟩ := List.exists_mem_of_ne_nil _ hne
    obtain ⟨himage, o, ho⟩ := mem_usableImages.1 himage
    rcases hk with hk | hk | ⟨image', himage', hk⟩
    · exact ⟨image, himage, o, ho, .inl hk⟩
    · exact ⟨image, himage, o, ho, .inr (.inl hk)⟩
    · obtain ⟨himage', o', ho'⟩ := mem_usableImages.1 himage'
      rcases hk with hcamera | hrotation | htrans | ⟨o'', ho'', rfl⟩
      · exact ⟨image', himage', o', ho', by simp only [hcamera, or_true]⟩
      · exact ⟨image', himage', o', ho', .inr (.inr (.inl hrotation))⟩
      · exact ⟨image', himage', o', ho', .inr (.inr (.inr (.inl htrans)))⟩
      · exact ⟨image', himage', o'', ho'', by simp only [true_or, or_true]⟩
  · rintro ⟨image, himage, o, ho, hk⟩
    have husable : image ∈ d.usableImages options s := mem_usableImages.2 ⟨himage, o, ho⟩
    refine ⟨List.ne_nil_of_mem husable, ?_⟩
    rcases hk with hk | hk | hk | hk | hk | hk
    · exact .inl hk
    · exact .inr (.inl hk)
    · exact .inr (.inr ⟨image, husable, .inr (.inl hk)⟩)
    · exact .inr (.inr ⟨image, husable, .inr (.inr (.inl hk))⟩)
    · exact .inr (.inr ⟨image, husable, .inr (.inr (.inr ⟨o, ho, hk.symm⟩))⟩)
    · exact .inr (.inr ⟨image, husable, .inl hk⟩)

/-- The blocks are those that measurements read. -/
theorem mem_keys {k : RigKey} : k ∈ d.keys options ↔ ∃ x ∈ d.sightings options.minTrackLength,
    k ∈ (d.measurement x.1 x.2.1 x.2.2.1 x.2.2.2).reads := by
  simp only [keys, mem_addKeys, List.not_mem_nil, false_or, List.mem_flatMap, mem_snapshotKeys_iff_reads]
  constructor
  · rintro ⟨⟨s, i⟩, hindex, image, himage, o, ho, hk⟩
    exact ⟨(i, s, image, o), mem_sightings.2 ⟨List.mk_mem_zipIdx_iff_getElem?.1 hindex, himage, ho⟩, hk⟩
  · rintro ⟨⟨i, s, image, o⟩, hx, hk⟩
    obtain ⟨hs, himage, ho⟩ := mem_sightings.1 hx
    exact ⟨(s, i), List.mk_mem_zipIdx_iff_getElem?.2 hs, image, himage, o, ho, hk⟩

theorem exists_reads {k : RigKey} (hk : k ∈ d.keys options) : ∃ m ∈ d.measurements options, k ∈ m.reads := by
  obtain ⟨x, hx, hread⟩ := mem_keys.1 hk
  exact ⟨_, mem_measurements.2 ⟨x, hx, rfl⟩, hread⟩

/-! ## Contents -/

variable [Scalar α]

/-- The camera that took an image is on the rig, and exists. -/
theorem Valid.exists_mounted (hd : d.Valid) {s : Snapshot α} (hs : s ∈ d.snapshots) {image : SnapshotImage α}
    (himage : image ∈ s.images) : ∃ m, d.mounted? s.rig image.mount = some m ∧ m.camera < d.cameras.length := by
  obtain ⟨rig, hrig, himages⟩ := hd.images s hs
  have hmount : rig.cameras[image.mount]? = some _ := List.getElem?_eq_getElem (himages image himage).mount
  have hcameras := (hd.mounted rig (List.mem_of_getElem? hrig)).2
  exact ⟨_, mounted?_eq hrig hmount, hcameras _ (List.mem_of_getElem? hmount)⟩

/-- What an observation of a valid dataset refers to is there. -/
theorem Valid.lookups (hd : d.Valid) {i : Nat} {s : Snapshot α} (hindex : d.snapshots[i]? = some s)
    {image : SnapshotImage α} (himage : image ∈ s.images) {o : Observation α} (ho : o ∈ image.observations) :
    ∃ mounted camera point, d.mounted? s.rig image.mount = some mounted ∧
      d.cameras[mounted.camera]? = some camera ∧ camera.Valid ∧ d.points[o.point]? = some point := by
  have hs := List.mem_of_getElem? hindex
  obtain ⟨m, hm, hcount⟩ := hd.exists_mounted hs himage
  have hcamera : d.cameras[m.camera]? = some _ := List.getElem?_eq_getElem hcount
  have hmem := mem_observations.2 ⟨s, hs, image, himage, ho⟩
  have hpoint : d.points[o.point]? = some _ := List.getElem?_eq_getElem (hd.observations o hmem)
  exact ⟨m, _, _, hm, hcamera, hd.cameras _ (List.mem_of_getElem? hcamera), hpoint⟩

theorem consistent (hd : d.Valid) :
    Consistent (d.blockSpec options) (d.keys options) (d.measurements options) where
  nodup := nodup_addKeys List.nodup_nil _
  specs k hk := by
    obtain ⟨⟨i, s, image, o⟩, hx, hread⟩ := mem_keys.1 hk
    obtain ⟨hindex, himage, ho⟩ := mem_sightings.1 hx
    obtain ⟨m, camera, point, hm, hcamera, hvalid, hpoint⟩ := hd.lookups hindex himage (List.mem_of_mem_filter ho)
    rcases mem_reads.1 hread with rfl | rfl | rfl | rfl | rfl | rfl
    · exact blockSpec_rigRotation hindex ▸ BlockSpec.rotation_sound _ _
    · exact blockSpec_rigTrans hindex ▸ BlockSpec.trans_sound _ _
    · exact blockSpec_relRotation hm ▸ BlockSpec.rotation_sound _ _
    · exact blockSpec_relTrans hm ▸ BlockSpec.trans_sound _ _
    · exact blockSpec_point hpoint ▸ BlockSpec.point_sound _ _
    · rw [cameraAt_eq hm, blockSpec_camera hcamera]
      exact BlockSpec.camera_sound _ hvalid
  reads m hm := by
    obtain ⟨⟨i, s, image, o⟩, hx, rfl⟩ := mem_measurements.1 hm
    have hkeys : ∀ k ∈ (d.measurement i s image o).reads, k ∈ d.keys options := fun k hk => mem_keys.2 ⟨_, hx, hk⟩
    obtain ⟨hindex, himage, ho⟩ := mem_sightings.1 hx
    obtain ⟨m, camera, point, hm, hcamera, hvalid, hpoint⟩ := hd.lookups hindex himage (List.mem_of_mem_filter ho)
    have hcameraFills : (d.blockSpec options (.camera m.camera)).Fills (.intrinsics camera.model) :=
      blockSpec_camera hcamera ▸ BlockSpec.camera_fills _ hvalid
    simp only [measurement, cameraAt_eq hm, Camera.modelAt_eq hcamera] at hkeys ⊢
    refine .cons ⟨hkeys _ (by simp), blockSpec_rigRotation hindex ▸ BlockSpec.rotation_fills _ _ _⟩ ?_
    refine .cons ⟨hkeys _ (by simp), blockSpec_rigTrans hindex ▸ BlockSpec.trans_fills _ _ _⟩ ?_
    refine .cons ⟨hkeys _ (by simp), blockSpec_relRotation hm ▸ BlockSpec.rotation_fills _ _ _⟩ ?_
    refine .cons ⟨hkeys _ (by simp), blockSpec_relTrans hm ▸ BlockSpec.trans_fills _ _ _⟩ ?_
    refine .cons ⟨hkeys _ (by simp), blockSpec_point hpoint ▸ BlockSpec.point_fills _ _ _⟩ ?_
    exact .cons ⟨hkeys _ (by simp), hcameraFills⟩ .nil

/-- A valid dataset gives the problem of its measurements, unless there are none. -/
theorem formulate_eq (hd : d.Valid) : d.formulate options =
    if d.measurements options = [] then .error (.noObservations (leastTrack options.minTrackLength))
    else .ok (assemble (d.blockSpec options) options.loss (d.keys options) (d.measurements options)) := by
  rw [formulate, run_snapshots hd, ok_bind]
  exact (consistent hd).finish RigKey.again options.minTrackLength

theorem soundIfAny (hd : d.Valid) : Formulation.SoundIfAny (d.formulate options) options.loss options.minTrackLength
    (usable options.minTrackLength d.trackLengths) d.observations := by
  rw [formulate_eq hd]
  refine (consistent hd).soundIfAny (fun k hk => exists_reads hk) ?_
  rw [measurements_eq, List.length_map, ← map_sightings, List.length_map]

/-! ## Residual blocks -/

/-- A residual block of a formulation is that of an observation in an image of the snapshot at a position. -/
structure Wired (d : RigDataset α) (options : RigOptions α) (f : Formulation α) (index : Nat) (s : Snapshot α)
    (image : SnapshotImage α) (o : Observation α) (r : ResidualBlock α) : Prop where
  loss : r.loss = options.loss
  blocks : ∃ mounted camera point, d.mounted? s.rig image.mount = some mounted ∧
    d.cameras[mounted.camera]? = some camera ∧ d.points[o.point]? = some point ∧ r.factor = .rig camera.model o.uv ∧
    f.blocks r = [some (s!"rig_rot/{index}", some s.pose.rot.toList),
      some (s!"rig_trans/{index}", some s.pose.trans.toList),
      some (s!"rel_rot/{s.rig}/{image.mount}", some mounted.pose.rot.toList),
      some (s!"rel_trans/{s.rig}/{image.mount}", some mounted.pose.trans.toList),
      some (s!"point/{o.point}", some point.toList), some (s!"cam/{mounted.camera}", some camera.params)]

theorem wired (hd : d.Valid) {x : Nat × Snapshot α × SnapshotImage α × Observation α}
    (hx : x ∈ d.sightings options.minTrackLength) :
    d.Wired options (assemble (d.blockSpec options) options.loss (d.keys options) (d.measurements options)) x.1 x.2.1
      x.2.2.1 x.2.2.2 ((d.measurement x.1 x.2.1 x.2.2.1 x.2.2.2).block options.loss (d.keys options)) := by
  obtain ⟨i, s, image, o⟩ := x
  obtain ⟨hindex, himage, ho⟩ := mem_sightings.1 hx
  obtain ⟨m, camera, point, hm, hcamera, -, hpoint⟩ := hd.lookups hindex himage (List.mem_of_mem_filter ho)
  refine ⟨rfl, m, camera, point, hm, hcamera, hpoint, ?_, ?_⟩
  · change Factor.rig (Camera.modelAt d.cameras (d.cameraAt s.rig image.mount)) o.uv = _
    rw [cameraAt_eq hm, Camera.modelAt_eq hcamera]
  · rw [blocks_block fun k hk => mem_keys.2 ⟨_, hx, hk⟩]
    simp only [measurement, cameraAt_eq hm, List.map_cons, List.map_nil, blockSpec_rigRotation hindex,
      blockSpec_rigTrans hindex, blockSpec_relRotation hm, blockSpec_relTrans hm, blockSpec_point hpoint,
      blockSpec_camera hcamera]
    rfl

/-! ## Parameter blocks -/

/-- Does a usable observation need the block of a key? -/
def Uses (d : RigDataset α) (options : RigOptions α) (k : RigKey) : Prop :=
  ∃ x ∈ d.sightings options.minTrackLength, match k with
    | .rigRotation i | .rigTrans i => x.1 = i
    | .relRotation r c | .relTrans r c => x.2.1.rig = r ∧ x.2.2.1.mount = c
    | .point p => x.2.2.2.point = p
    | .camera c => ∃ mounted, d.mounted? x.2.1.rig x.2.2.1.mount = some mounted ∧ mounted.camera = c

/-- Is as much of the block of a key held constant as the options say? -/
def Holds (d : RigDataset α) (options : RigOptions α) (b : ParamBlock α) : RigKey → Prop
  | .rigRotation i | .rigTrans i => b.HeldIff (i ∈ options.constantRigPoses)
  | .relRotation _ c | .relTrans _ c => b.HeldIff (c = 0 ∨ options.refineRelativePoses = false)
  | .point p => b.HeldIff (p ∈ options.constantPoints)
  | .camera c => ∃ camera, d.cameras[c]? = some camera ∧ ∀ i, b.fixed.isFixed i = true ↔
      options.refine.focal = false ∧ i ∈ camera.model.focalIndices ∨
        options.refine.principal = false ∧ i ∈ camera.model.principalIndices ∨
        options.refine.extra = false ∧ i ∈ camera.model.extraIndices

theorem mem_keys_iff_uses (hd : d.Valid) {k : RigKey} : k ∈ d.keys options ↔ d.Uses options k := by
  rw [mem_keys, Uses]
  refine exists_congr fun x => and_congr_right fun hx => ?_
  obtain ⟨i, s, image, o⟩ := x
  obtain ⟨hindex, himage, ho⟩ := mem_sightings.1 hx
  obtain ⟨m, camera, point, hm, -⟩ := hd.lookups hindex himage (List.mem_of_mem_filter ho)
  rw [mem_reads, cameraAt_eq hm]
  cases k <;> simp [hm, eq_comm]

theorem holds_paramBlock (hd : d.Valid) {k : RigKey} (hk : k ∈ d.keys options) (position : Nat) :
    d.Holds options (paramBlock (d.blockSpec options) k position) k := by
  obtain ⟨⟨i, s, image, o⟩, hx, hread⟩ := mem_keys.1 hk
  obtain ⟨hindex, himage, ho⟩ := mem_sightings.1 hx
  obtain ⟨m, camera, point, hm, hcamera, hvalid, hpoint⟩ := hd.lookups hindex himage (List.mem_of_mem_filter ho)
  have hrelative : isRelativeConstant options image.mount = true ↔
      image.mount = 0 ∨ options.refineRelativePoses = false := by
    simp [isRelativeConstant, or_comm]
  rcases mem_reads.1 hread with rfl | rfl | rfl | rfl | rfl | rfl
  · rw [paramBlock, blockSpec_rigRotation hindex]
    exact ParamBlock.heldIff_of_mask (Nat.zero_lt_succ _) rfl List.contains_iff_mem
  · rw [paramBlock, blockSpec_rigTrans hindex]
    exact ParamBlock.heldIff_of_mask (Nat.zero_lt_succ _) rfl List.contains_iff_mem
  · rw [paramBlock, blockSpec_relRotation hm]
    exact ParamBlock.heldIff_of_mask (Nat.zero_lt_succ _) rfl hrelative
  · rw [paramBlock, blockSpec_relTrans hm]
    exact ParamBlock.heldIff_of_mask (Nat.zero_lt_succ _) rfl hrelative
  · rw [paramBlock, blockSpec_point hpoint]
    exact ParamBlock.heldIff_of_mask (Nat.zero_lt_succ _) rfl List.contains_iff_mem
  · rw [paramBlock, cameraAt_eq hm, blockSpec_camera hcamera]
    exact ⟨camera, hcamera, fun i => Refinement.isFixed_mask⟩

/-- The residual blocks are those of the usable observations, in order; the parameter blocks are those that these need,
each once, held constant as the options say. -/
theorem formulate_blocks {cameras : List (Camera α)} {rigs : List (Rig α)} {snapshots : List (Snapshot α)}
    {points : List (Vec3 α)} (hd : make cameras rigs snapshots points = .ok d) {f : Formulation α}
    (hf : d.formulate options = .ok f) :
    List.Forall₂ (fun x r => d.Wired options f x.1 x.2.1 x.2.2.1 x.2.2.2 r) (d.sightings options.minTrackLength)
        f.problem.residuals ∧
      (f.problem.params.map (·.name)).Nodup ∧
      (∀ k, d.Uses options k ↔ ∃ b ∈ f.problem.params, b.name = BlockKey.name k) ∧
      ∀ b ∈ f.problem.params, (∃ k : RigKey, b.name = BlockKey.name k) ∧
        ∀ k : RigKey, b.name = BlockKey.name k → d.Holds options b k := by
  obtain ⟨-, hvalid⟩ := make_eq_ok.1 hd
  rw [formulate_eq hvalid] at hf
  split at hf
  · cases hf
  · obtain rfl := Except.ok.inj hf
    have hresiduals : (assemble (d.blockSpec options) options.loss (d.keys options)
        (d.measurements options)).problem.residuals = (d.sightings options.minTrackLength).map fun x =>
          (d.measurement x.1 x.2.1 x.2.2.1 x.2.2.2).block options.loss (d.keys options) := by
      rw [assemble, measurements_eq, List.map_map]
      rfl
    refine ⟨?_, (consistent hvalid).wellFormed.names, fun k => ?_, fun b hb => ?_⟩
    · rw [hresiduals, List.forall₂_map_right_iff, List.forall₂_same]
      exact fun x hx => wired hvalid hx
    · rw [← mem_keys_iff_uses hvalid]
      constructor
      · intro hk
        exact ⟨_, List.mem_of_getElem? (params_idxOf hk), rfl⟩
      · rintro ⟨b, hb, hname⟩
        obtain ⟨j, hj, i, rfl⟩ := mem_params hb
        exact LawfulBlockKey.name_injective hname ▸ hj
    · obtain ⟨k, hk, i, rfl⟩ := mem_params hb
      refine ⟨⟨k, rfl⟩, fun j hname => ?_⟩
      exact LawfulBlockKey.name_injective hname ▸ holds_paramBlock hvalid hk i

/-- One point, seen by the second camera of a rig in two snapshots. -/
def twoSnapshots : RigDataset Float where
  cameras := [⟨.simplePinhole, [1, 0, 0]⟩]
  rigs := [⟨[⟨0, .one⟩, ⟨0, .one⟩]⟩]
  snapshots := [⟨0, .one, [⟨1, [⟨0, ⟨0, 0⟩⟩]⟩]⟩, ⟨0, .one, [⟨1, [⟨0, ⟨1, 0⟩⟩]⟩]⟩]
  points := [⟨0, 0, 1⟩]

/-- The pose of the second camera on the rig is one block, which is free. -/
theorem formulate_blocks_twoSnapshots : ∃ f, twoSnapshots.formulate .default = .ok f ∧
    (f.problem.params.map (·.name)).Nodup ∧ ∃ b ∈ f.problem.params, b.name = "rel_rot/0/1" ∧ b.HeldIff False := by
  have hd : make twoSnapshots.cameras twoSnapshots.rigs twoSnapshots.snapshots twoSnapshots.points =
      .ok twoSnapshots := rfl
  have hsome : (twoSnapshots.formulate .default).toOption.isSome = true := by decide +kernel
  cases hf : twoSnapshots.formulate .default with
  | error e => rw [hf] at hsome; cases hsome
  | ok f =>
    obtain ⟨-, hnodup, huses, hholds⟩ := formulate_blocks hd hf
    have hx : twoSnapshots.Uses .default (.relRotation 0 1) :=
      ⟨_, List.mem_of_getElem? (i := 0) rfl, rfl, rfl⟩
    obtain ⟨b, hb, hname⟩ := (huses (.relRotation 0 1)).1 hx
    have hheld : b.HeldIff (1 = 0 ∨ true = false) := (hholds b hb).2 (.relRotation 0 1) hname
    exact ⟨f, rfl, hnodup, b, hb, hname, by simpa using hheld⟩

end RigDataset

end MultiView
