import MultiView.Proofs.Bundle.Drafting

/-!
# The problem of bundle adjustment

A valid dataset gives a problem as soon as an observation is usable (`BundleDataset.formulate_eq`). The problem is sound
(`BundleDataset.sound`), and its residual blocks are those of the usable observations, in order
(`BundleDataset.formulate_residuals`).
-/

namespace MultiView

open Measurement

namespace BundleDataset

variable {α : Type} {d : BundleDataset α} {options : BundleOptions α}

/-! ## The plan -/

/-- The usable observations, each with its image and the image's position. -/
def sightings (d : BundleDataset α) (asked : Nat) : List (Nat × Image α × Observation α) :=
  d.images.zipIdx.flatMap fun (image, i) =>
    (image.observations.filter (usable asked d.trackLengths)).map fun o => (i, image, o)

theorem mem_sightings {asked : Nat} {s : Nat × Image α × Observation α} :
    s ∈ d.sightings asked ↔ d.images[s.1]? = some s.2.1 ∧
      s.2.2 ∈ s.2.1.observations.filter (usable asked d.trackLengths) := by
  obtain ⟨i, image, o⟩ := s
  rw [sightings, List.mem_flatMap]
  constructor
  · rintro ⟨⟨image', j⟩, hindex, hs⟩
    obtain ⟨o', ho, hs⟩ := List.mem_map.1 hs
    obtain ⟨rfl, rfl, rfl⟩ : j = i ∧ image' = image ∧ o' = o := by simpa using hs
    exact ⟨List.mk_mem_zipIdx_iff_getElem?.1 hindex, ho⟩
  · rintro ⟨hindex, ho⟩
    exact ⟨(image, i), List.mk_mem_zipIdx_iff_getElem?.2 hindex, List.mem_map_of_mem ho⟩

/-- The observations of sightings are the usable ones, in order. -/
theorem map_sightings (asked : Nat) : (d.sightings asked).map (·.2.2) =
    d.observations.filter (usable asked d.trackLengths) := by
  rw [observations, List.filter_flatMap, ← flatMap_zipIdx, sightings, List.map_flatMap]
  simp only [List.map_map, Function.comp_def, List.map_id']

theorem measurements_eq : d.measurements options =
    (d.sightings options.minTrackLength).map fun s => d.measurement options s.1 s.2.1 s.2.2 := by
  simp only [measurements, sightings, List.map_flatMap, List.map_map]
  rfl

theorem mem_measurements {m : Measurement BundleKey α} : m ∈ d.measurements options ↔
    ∃ i image o, d.images[i]? = some image ∧ o ∈ d.usableObservations options image ∧
      m = d.measurement options i image o := by
  rw [measurements_eq, List.mem_map]
  constructor
  · rintro ⟨⟨i, image, o⟩, hs, rfl⟩
    exact ⟨i, image, o, (mem_sightings.1 hs).1, (mem_sightings.1 hs).2, rfl⟩
  · rintro ⟨i, image, o, hindex, ho, rfl⟩
    exact ⟨(i, image, o), mem_sightings.2 ⟨hindex, ho⟩, rfl⟩

theorem mem_imageKeys_iff_reads {index : Nat} {image : Image α} {k : BundleKey} :
    k ∈ d.imageKeys options index image ↔
      ∃ o ∈ d.usableObservations options image, k ∈ (d.measurement options index image o).reads := by
  simp only [mem_imageKeys, mem_reads]
  constructor
  · rintro ⟨hne, hk⟩
    obtain ⟨o, ho⟩ := List.exists_mem_of_ne_nil _ hne
    rcases hk with hcamera | hpose | ⟨o', ho', hpoint⟩
    · exact ⟨o, ho, .inl hcamera⟩
    · exact ⟨o, ho, .inr (.inl hpose)⟩
    · exact ⟨o', ho', .inr (.inr hpoint)⟩
  · rintro ⟨o, ho, hk⟩
    refine ⟨List.ne_nil_of_mem ho, ?_⟩
    rcases hk with hcamera | hpose | hpoint
    · exact .inl hcamera
    · exact .inr (.inl hpose)
    · exact .inr (.inr ⟨o, ho, hpoint⟩)

/-- The blocks are those that measurements read. -/
theorem mem_keys {k : BundleKey} : k ∈ d.keys options ↔ ∃ m ∈ d.measurements options, k ∈ m.reads := by
  simp only [keys, mem_addKeys, List.not_mem_nil, false_or, List.mem_flatMap, mem_imageKeys_iff_reads,
    mem_measurements]
  constructor
  · rintro ⟨⟨image, i⟩, hindex, o, ho, hk⟩
    exact ⟨_, ⟨i, image, o, List.mk_mem_zipIdx_iff_getElem?.1 hindex, ho, rfl⟩, hk⟩
  · rintro ⟨_, ⟨i, image, o, hindex, ho, rfl⟩, hk⟩
    exact ⟨(image, i), List.mk_mem_zipIdx_iff_getElem?.2 hindex, o, ho, hk⟩

variable [Scalar α]

/-- What an observation of a valid dataset refers to is there. -/
theorem Valid.lookups (hd : d.Valid) {i : Nat} {image : Image α} (hindex : d.images[i]? = some image)
    {o : Observation α} (ho : o ∈ image.observations) :
    ∃ camera point, d.cameras[image.camera]? = some camera ∧ camera.Valid ∧ d.points[o.point]? = some point := by
  have himage : image ∈ d.images := List.mem_of_getElem? hindex
  have hcamera : d.cameras[image.camera]? = some _ := List.getElem?_eq_getElem (hd.camera image himage)
  have hpoint : d.points[o.point]? = some _ := List.getElem?_eq_getElem (hd.point image himage o ho)
  exact ⟨_, _, hcamera, hd.cameras _ (List.mem_of_getElem? hcamera), hpoint⟩

theorem consistent (hd : d.Valid) :
    Consistent (d.blockSpec options) (d.keys options) (d.measurements options) where
  nodup := nodup_addKeys List.nodup_nil _
  specs k hk := by
    obtain ⟨m, hm, hread⟩ := mem_keys.1 hk
    obtain ⟨i, image, o, hindex, ho, rfl⟩ := mem_measurements.1 hm
    obtain ⟨camera, point, hcamera, hvalid, hpoint⟩ := hd.lookups hindex (List.mem_of_mem_filter ho)
    rcases mem_reads.1 hread with rfl | hpose | rfl
    · exact blockSpec_camera hcamera ▸ BlockSpec.camera_sound _ hvalid
    · obtain ⟨-, rfl | rfl⟩ := mem_poseKeys.1 hpose
      · exact blockSpec_rotation hindex ▸ BlockSpec.rotation_sound _ _
      · exact blockSpec_trans hindex ▸ BlockSpec.trans_sound _ _
    · exact blockSpec_point hpoint ▸ BlockSpec.point_sound _ _
  reads m hm := by
    have hkeys : ∀ k ∈ m.reads, k ∈ d.keys options := fun k hk => mem_keys.2 ⟨m, hm, hk⟩
    obtain ⟨i, image, o, hindex, ho, rfl⟩ := mem_measurements.1 hm
    obtain ⟨camera, point, hcamera, hvalid, hpoint⟩ := hd.lookups hindex (List.mem_of_mem_filter ho)
    have hpointFills : (d.blockSpec options (.point o.point)).Fills (.vector .point) :=
      blockSpec_point hpoint ▸ BlockSpec.point_fills _ _ _
    have hcameraFills : (d.blockSpec options (.camera image.camera)).Fills (.intrinsics camera.model) :=
      blockSpec_camera hcamera ▸ BlockSpec.camera_fills _ hvalid
    have hrotationFills : (d.blockSpec options (.rotation i)).Fills (.rotation .rotation) :=
      blockSpec_rotation hindex ▸ BlockSpec.rotation_fills _ _ _
    have htransFills : (d.blockSpec options (.trans i)).Fills (.vector .trans) :=
      blockSpec_trans hindex ▸ BlockSpec.trans_fills _ _ _
    by_cases hconstant : options.constantPoses.contains i = true
    · rw [measurement_of_constant hconstant, Camera.modelAt_eq hcamera] at hkeys ⊢
      exact .cons ⟨hkeys _ (by simp), hpointFills⟩ (.cons ⟨hkeys _ (by simp), hcameraFills⟩ .nil)
    · rw [measurement_of_variable hconstant, Camera.modelAt_eq hcamera] at hkeys ⊢
      exact .cons ⟨hkeys _ (by simp), hrotationFills⟩ (.cons ⟨hkeys _ (by simp), htransFills⟩
        (.cons ⟨hkeys _ (by simp), hpointFills⟩ (.cons ⟨hkeys _ (by simp), hcameraFills⟩ .nil)))

/-- A valid dataset gives the problem of its measurements, unless there are none. -/
theorem formulate_eq (hd : d.Valid) : d.formulate options =
    if d.measurements options = [] then .error (.noObservations (leastTrack options.minTrackLength))
    else .ok (assemble (d.blockSpec options) options.loss (d.keys options) (d.measurements options)) := by
  rw [formulate, run_images hd, ok_bind]
  exact (consistent hd).finish BundleKey.again options.minTrackLength

theorem soundIfAny (hd : d.Valid) : Formulation.SoundIfAny (d.formulate options) options.loss options.minTrackLength
    (usable options.minTrackLength d.trackLengths) d.observations := by
  rw [formulate_eq hd]
  refine (consistent hd).soundIfAny (fun k hk => mem_keys.1 hk) ?_
  rw [measurements_eq, List.length_map, ← map_sightings, List.length_map]

/-! ## Residual blocks -/

/-- A residual block of a formulation is that of an observation in the image at a position. -/
structure Wired (d : BundleDataset α) (options : BundleOptions α) (f : Formulation α) (index : Nat) (image : Image α)
    (o : Observation α) (r : ResidualBlock α) : Prop where
  loss : r.loss = options.loss
  blocks : ∃ camera point, d.cameras[image.camera]? = some camera ∧ d.points[o.point]? = some point ∧
    if index ∈ options.constantPoses then
      r.factor = .fixedPose camera.model image.pose o.uv ∧
        f.blocks r = [some (s!"point/{o.point}", some point.toList), some (s!"cam/{image.camera}", some camera.params)]
    else
      r.factor = .reprojection camera.model o.uv ∧
        f.blocks r = [some (s!"rot/{index}", some image.pose.rot.toList),
          some (s!"trans/{index}", some image.pose.trans.toList), some (s!"point/{o.point}", some point.toList),
          some (s!"cam/{image.camera}", some camera.params)]

theorem wired (hd : d.Valid) {s : Nat × Image α × Observation α} (hs : s ∈ d.sightings options.minTrackLength) :
    d.Wired options (assemble (d.blockSpec options) options.loss (d.keys options) (d.measurements options)) s.1 s.2.1
      s.2.2 ((d.measurement options s.1 s.2.1 s.2.2).block options.loss (d.keys options)) := by
  obtain ⟨i, image, o⟩ := s
  obtain ⟨hindex, ho⟩ := mem_sightings.1 hs
  obtain ⟨camera, point, hcamera, -, hpoint⟩ := hd.lookups hindex (List.mem_of_mem_filter ho)
  have hmem : d.measurement options i image o ∈ d.measurements options :=
    mem_measurements.2 ⟨i, image, o, hindex, ho, rfl⟩
  refine ⟨rfl, camera, point, hcamera, hpoint, ?_⟩
  rw [blocks_block fun k hk => mem_keys.2 ⟨_, hmem, hk⟩]
  split
  · next hconstant =>
    rw [measurement_of_constant (List.contains_iff_mem.2 hconstant), Camera.modelAt_eq hcamera]
    refine ⟨rfl, ?_⟩
    simp only [List.map_cons, List.map_nil, blockSpec_point hpoint, blockSpec_camera hcamera]
    rfl
  · next hconstant =>
    rw [measurement_of_variable (mt List.contains_iff_mem.1 hconstant), Camera.modelAt_eq hcamera]
    refine ⟨rfl, ?_⟩
    simp only [List.map_cons, List.map_nil, blockSpec_rotation hindex, blockSpec_trans hindex,
      blockSpec_point hpoint, blockSpec_camera hcamera]
    rfl

/-- The residual blocks are those of the usable observations, in order: as many as the long enough tracks have. -/
theorem formulate_residuals {cameras : List (Camera α)} {images : List (Image α)} {points : List (Vec3 α)}
    (hd : make cameras images points = .ok d) {f : Formulation α} (hf : d.formulate options = .ok f) :
    List.Forall₂ (fun s r => d.Wired options f s.1 s.2.1 s.2.2 r) (d.sightings options.minTrackLength)
        f.problem.residuals ∧
      f.problem.residuals.length =
        (d.trackLengths.filter fun length => leastTrack options.minTrackLength ≤ length).sum := by
  obtain ⟨-, hvalid⟩ := make_eq_ok.1 hd
  rw [formulate_eq hvalid] at hf
  split at hf
  · cases hf
  · obtain rfl := Except.ok.inj hf
    have hresiduals : (assemble (d.blockSpec options) options.loss (d.keys options)
        (d.measurements options)).problem.residuals = (d.sightings options.minTrackLength).map fun s =>
          (d.measurement options s.1 s.2.1 s.2.2).block options.loss (d.keys options) := by
      rw [assemble, measurements_eq, List.map_map]
      rfl
    rw [hresiduals, List.forall₂_map_right_iff, List.forall₂_same, List.length_map]
    refine ⟨fun s hs => wired hvalid hs, ?_⟩
    rw [BundleDataset.trackLengths, ← length_filter_usable hvalid.observations, ← BundleDataset.trackLengths,
      ← map_sightings, List.length_map]

/-- One point, seen by one camera from two images. -/
def twoImages : BundleDataset Float where
  cameras := [⟨.simplePinhole, [1, 0, 0]⟩]
  images := [⟨0, .one, [⟨0, ⟨0, 0⟩⟩]⟩, ⟨0, .one, [⟨0, ⟨1, 0⟩⟩]⟩]
  points := [⟨0, 0, 1⟩]

theorem formulate_residuals_twoImages : ∃ f, twoImages.formulate .default = .ok f ∧
    List.Forall₂ (fun s r => twoImages.Wired .default f s.1 s.2.1 s.2.2 r) (twoImages.sightings 2)
      f.problem.residuals ∧ f.problem.residuals.length = 2 := by
  have hd : make twoImages.cameras twoImages.images twoImages.points = .ok twoImages := rfl
  have hsome : (twoImages.formulate .default).toOption.isSome = true := by decide +kernel
  cases hf : twoImages.formulate .default with
  | error e => rw [hf] at hsome; cases hsome
  | ok f =>
    obtain ⟨hwired, hlength⟩ := formulate_residuals hd hf
    exact ⟨f, rfl, hwired, hlength.trans rfl⟩

end BundleDataset

end MultiView
