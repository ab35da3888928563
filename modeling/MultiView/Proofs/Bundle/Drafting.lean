import MultiView.Bundle.Formulation
import MultiView.Proofs.Bundle.Dataset
import MultiView.Proofs.Reconstruction.WellFormed

/-!
# The draft of bundle adjustment

A valid dataset's draft holds the blocks of `BundleDataset.keys` and the measurements of `BundleDataset.measurements`:
one observation adds its point and its measurement (`run_addObservation`), and an image that has usable observations
first adds its camera, and its pose unless that is held constant (`run_addImage`).
-/

namespace MultiView

open Measurement Drafting

/-- May a block be asked for again? The blocks of a pose belong to one image. -/
def BundleKey.again : BundleKey → Bool
  | .camera _ | .point _ => true
  | .rotation _ | .trans _ => false

instance : LawfulBlockKey BundleKey where
  name_injective j k h := by
    cases j <;> cases k <;> simp [BlockKey.name, ← String.toList_inj, toString] at h
    all_goals rw [digits_injective h]

namespace BundleDataset

variable {α : Type} (d : BundleDataset α) (options : BundleOptions α)

/-! ## Blocks and measurements -/

/-- The contents of a block. -/
def blockSpec : BundleKey → BlockSpec α
  | .camera i => .orBlank (d.cameras[i]?.map (.camera options.refine))
  | .rotation i => .orBlank (d.images[i]?.map fun image => .rotation false image.pose)
  | .trans i => .orBlank (d.images[i]?.map fun image => .trans false image.pose)
  | .point i => .orBlank (d.points[i]?.map (.point (options.constantPoints.contains i)))

/-- The observations of an image that take part. -/
def usableObservations (image : Image α) : List (Observation α) :=
  image.observations.filter (usable options.minTrackLength d.trackLengths)

/-- The measurement of an observation in the image at a position. -/
def measurement (index : Nat) (image : Image α) (o : Observation α) : Measurement BundleKey α :=
  let model := Camera.modelAt d.cameras image.camera
  if options.constantPoses.contains index then
    { factor := .fixedPose model image.pose o.uv
      reads := [.point o.point, .camera image.camera] }
  else
    { factor := .reprojection model o.uv
      reads := [.rotation index, .trans index, .point o.point, .camera image.camera] }

def imageMeasurements (index : Nat) (image : Image α) : List (Measurement BundleKey α) :=
  (d.usableObservations options image).map (d.measurement options index image)

/-- The measurements of all images, in order. -/
def measurements : List (Measurement BundleKey α) :=
  d.images.zipIdx.flatMap fun (image, i) => d.imageMeasurements options i image

/-- The blocks of an image's pose, if it varies. -/
def poseKeys (index : Nat) : List BundleKey :=
  if options.constantPoses.contains index then [] else [.rotation index, .trans index]

/-- The blocks that an image asks for, in order. -/
def imageKeys (index : Nat) (image : Image α) : List BundleKey :=
  match d.usableObservations options image with
  | [] => []
  | os => .camera image.camera :: (poseKeys options index ++ os.map fun o => .point o.point)

/-- The blocks of all images, each where it is first asked for. -/
def keys : List BundleKey := addKeys [] (d.images.zipIdx.flatMap fun (image, i) => d.imageKeys options i image)

/-- The draft of keys and measurements. -/
abbrev draft (ks : List BundleKey) (ms : List (Measurement BundleKey α)) : Draft BundleKey α :=
  Draft.of (d.blockSpec options) options.loss BundleKey.again ks ms

variable {d options} {ks : List BundleKey} {ms : List (Measurement BundleKey α)}

theorem blockSpec_camera {i : Nat} {c : Camera α} (h : d.cameras[i]? = some c) :
    d.blockSpec options (.camera i) = .camera options.refine c := by
  simp [blockSpec, h, BlockSpec.orBlank]

theorem blockSpec_rotation {i : Nat} {image : Image α} (h : d.images[i]? = some image) :
    d.blockSpec options (.rotation i) = .rotation false image.pose := by
  simp [blockSpec, h, BlockSpec.orBlank]

theorem blockSpec_trans {i : Nat} {image : Image α} (h : d.images[i]? = some image) :
    d.blockSpec options (.trans i) = .trans false image.pose := by
  simp [blockSpec, h, BlockSpec.orBlank]

theorem blockSpec_point {i : Nat} {p : Vec3 α} (h : d.points[i]? = some p) :
    d.blockSpec options (.point i) = .point (options.constantPoints.contains i) p := by
  simp [blockSpec, h, BlockSpec.orBlank]

theorem measurement_of_constant {index : Nat} {image : Image α} {o : Observation α}
    (h : options.constantPoses.contains index = true) : d.measurement options index image o =
      ⟨.fixedPose (Camera.modelAt d.cameras image.camera) image.pose o.uv, [.point o.point, .camera image.camera]⟩ :=
  if_pos h

theorem measurement_of_variable {index : Nat} {image : Image α} {o : Observation α}
    (h : ¬options.constantPoses.contains index = true) : d.measurement options index image o =
      ⟨.reprojection (Camera.modelAt d.cameras image.camera) o.uv,
        [.rotation index, .trans index, .point o.point, .camera image.camera]⟩ :=
  if_neg h

/-! ## Observations -/

/-- The ids of the blocks of an image's pose, if it varies. -/
def poseIds (options : BundleOptions α) (index : Nat) (ks : List BundleKey) : Option (Nat × Nat) :=
  if options.constantPoses.contains index then none else some (ks.idxOf (.rotation index), ks.idxOf (.trans index))

/-- An image's camera, and its pose if that varies, are among the keys. -/
structure Ready (options : BundleOptions α) (index : Nat) (image : Image α) (ks : List BundleKey) : Prop where
  camera : .camera image.camera ∈ ks
  pose : poseKeys options index ⊆ ks

theorem Ready.extend {index : Nat} {image : Image α} {js : List BundleKey} (h : Ready options index image ks)
    (hext : ks <+: js) : Ready options index image js :=
  ⟨hext.subset h.camera, List.Subset.trans h.pose hext.subset⟩

theorem Ready.poseIds_eq {index : Nat} {image : Image α} {js : List BundleKey} (h : Ready options index image ks)
    (hext : ks <+: js) : poseIds options index js = poseIds options index ks := by
  have hpose := h.pose
  unfold poseIds
  unfold poseKeys at hpose
  split at hpose
  · next hconstant => rw [if_pos hconstant, if_pos hconstant]
  · next hconstant =>
    rw [if_neg hconstant, if_neg hconstant, idxOf_extend hext (hpose (by simp)), idxOf_extend hext (hpose (by simp))]

theorem mem_poseKeys {index : Nat} {k : BundleKey} :
    k ∈ poseKeys options index ↔ index ∉ options.constantPoses ∧ (k = .rotation index ∨ k = .trans index) := by
  unfold poseKeys
  split <;> next hconstant => simp_all

/-- A measurement reads its camera, its pose if that varies, and its point. -/
theorem mem_reads {index : Nat} {image : Image α} {o : Observation α} {k : BundleKey} :
    k ∈ (d.measurement options index image o).reads ↔
      k = .camera image.camera ∨ k ∈ poseKeys options index ∨ k = .point o.point := by
  unfold poseKeys
  by_cases hconstant : options.constantPoses.contains index = true
  · rw [measurement_of_constant hconstant, if_pos hconstant]
    simp [or_comm]
  · rw [measurement_of_variable hconstant, if_neg hconstant]
    simp only [List.mem_cons, List.not_mem_nil, or_false]
    tauto

theorem reads_subset {index : Nat} {image : Image α} {o : Observation α} (h : Ready options index image ks)
    (ho : .point o.point ∈ ks) : (d.measurement options index image o).reads ⊆ ks := by
  intro k hk
  rcases mem_reads.1 hk with rfl | hpose | rfl
  · exact h.camera
  · exact h.pose hpose
  · exact ho

theorem run_addObservation {index : Nat} {image : Image α} {o : Observation α} (h : Ready options index image ks)
    (hw : Within ms ks) (ho : o.point < d.points.length) :
    (d.addObservation options image (Camera.modelAt d.cameras image.camera) (ks.idxOf (.camera image.camera))
        (poseIds options index ks) o).run (d.draft options ks ms) =
      .ok ((), d.draft options (addKey ks (.point o.point)) (ms ++ [d.measurement options index image o])) := by
  have hpoint : d.points[o.point]? = some d.points[o.point] := List.getElem?_eq_getElem ho
  have hext : ks <+: addKey ks (.point o.point) := prefix_addKey ks (.point o.point)
  have hshare : (sharePoint (.point o.point) (options.constantPoints.contains o.point) d.points o.point).run
      (d.draft options ks ms) = _ := run_sharePoint hw rfl hpoint (blockSpec_point hpoint)
  have hrun : ∀ m : Measurement BundleKey α, (addResidual m.factor (m.reads.map (addKey ks (.point o.point)).idxOf)
      options.loss).run (d.draft options (addKey ks (.point o.point)) ms) =
        .ok ((), d.draft options (addKey ks (.point o.point)) (ms ++ [m])) := run_addResidual
  unfold addObservation
  rw [← h.poseIds_eq hext, ← idxOf_extend hext h.camera, StateT.run_bind, hshare, ok_bind]
  by_cases hconstant : options.constantPoses.contains index = true
  · have hids : poseIds options index (addKey ks (.point o.point)) = none := if_pos hconstant
    rw [hids, measurement_of_constant hconstant]
    exact hrun ⟨.fixedPose (Camera.modelAt d.cameras image.camera) image.pose o.uv,
      [.point o.point, .camera image.camera]⟩
  · have hids : poseIds options index (addKey ks (.point o.point)) = _ := if_neg hconstant
    rw [hids, measurement_of_variable hconstant]
    exact hrun ⟨.reprojection (Camera.modelAt d.cameras image.camera) o.uv,
      [.rotation index, .trans index, .point o.point, .camera image.camera]⟩

/-- All observations of an image, once its camera and its pose are there. -/
theorem run_observations {index : Nat} {image : Image α} (h : Ready options index image ks) (hw : Within ms ks)
    {os : List (Observation α)} (hos : ∀ o ∈ os, o.point < d.points.length) :
    (os.forM (d.addObservation options image (Camera.modelAt d.cameras image.camera) (ks.idxOf (.camera image.camera))
        (poseIds options index ks))).run (d.draft options ks ms) =
      .ok ((), d.draft options (addKeys ks (os.map fun o => .point o.point))
        (ms ++ os.map (d.measurement options index image))) := by
  rw [List.map_eq_flatMap, List.map_eq_flatMap]
  refine run_forM_within (fun o => [.point o.point]) (fun o => [d.measurement options index image o]) hw ?_ ?_
  · intro o ho js ms hext hw
    rw [← idxOf_extend hext h.camera, ← h.poseIds_eq hext]
    exact run_addObservation (h.extend hext) hw (hos o ho)
  · intro o ho js hext hpoint m hm
    rw [List.mem_singleton.1 hm]
    exact reads_subset (h.extend hext) (hpoint List.mem_cons_self)

/-! ## Images -/

theorem imageKeys_of_ne_nil {index : Nat} {image : Image α} (h : d.usableObservations options image ≠ []) :
    d.imageKeys options index image = .camera image.camera ::
      (poseKeys options index ++ (d.usableObservations options image).map fun o => .point o.point) := by
  unfold imageKeys
  split
  · next hnil => exact absurd hnil h
  · rfl

theorem mem_imageKeys {index : Nat} {image : Image α} {k : BundleKey} :
    k ∈ d.imageKeys options index image ↔ d.usableObservations options image ≠ [] ∧
      (k = .camera image.camera ∨ k ∈ poseKeys options index ∨
        ∃ o ∈ d.usableObservations options image, k = .point o.point) := by
  by_cases hnil : d.usableObservations options image = []
  · simp [imageKeys, hnil]
  · rw [imageKeys_of_ne_nil hnil, List.mem_cons, List.mem_append, List.mem_map]
    simp only [ne_eq, hnil, not_false_eq_true, true_and, @eq_comm _ _ k]

/-- An image's measurements read the blocks that the image asks for. -/
theorem within_imageMeasurements {index : Nat} {image : Image α} (hsub : d.imageKeys options index image ⊆ ks) :
    Within (d.imageMeasurements options index image) ks := by
  intro m hm
  obtain ⟨o, ho, rfl⟩ := List.mem_map.1 hm
  have hne : d.usableObservations options image ≠ [] := List.ne_nil_of_mem ho
  have hcamera := hsub (mem_imageKeys.2 ⟨hne, .inl rfl⟩)
  have hpose : poseKeys options index ⊆ ks := fun k hk => hsub (mem_imageKeys.2 ⟨hne, .inr (.inl hk)⟩)
  exact reads_subset ⟨hcamera, hpose⟩ (hsub (mem_imageKeys.2 ⟨hne, .inr (.inr ⟨o, ho, rfl⟩)⟩))

theorem camera_notMem_poseKeys {index i : Nat} : .camera i ∉ poseKeys options index := by
  simp [mem_poseKeys]

theorem run_addImagePose {index : Nat} {image : Image α} (hindex : d.images[index]? = some image) (hw : Within ms ks)
    (hfresh : ∀ k ∈ poseKeys options index, k ∉ ks) :
    (addImagePose options index image).run (d.draft options ks ms) =
      .ok (poseIds options index (addKeys ks (poseKeys options index)),
        d.draft options (addKeys ks (poseKeys options index)) ms) := by
  unfold addImagePose poseIds
  unfold poseKeys at hfresh ⊢
  by_cases hconstant : options.constantPoses.contains index = true
  · rw [if_pos hconstant, if_pos hconstant, if_pos hconstant]
    rfl
  · rw [if_neg hconstant] at hfresh
    rw [if_neg hconstant, if_neg hconstant, if_neg hconstant]
    have hagain : BundleKey.again (.rotation index) = false ∧ BundleKey.again (.trans index) = false := ⟨rfl, rfl⟩
    have hpose : (addPose (.rotation index) (.trans index) false image.pose).run (d.draft options ks ms) = _ :=
      run_addPose hw (hfresh _ (by simp)) (hfresh _ (by simp)) (by simp) hagain
        (blockSpec_rotation hindex) (blockSpec_trans hindex)
    rw [StateT.run_map, hpose]
    rfl

theorem run_addImage {index : Nat} {image : Image α} (hindex : d.images[index]? = some image)
    (hcamera : image.camera < d.cameras.length) (hpoints : ∀ o ∈ image.observations, o.point < d.points.length)
    (hw : Within ms ks) (hfresh : ∀ k ∈ poseKeys options index, k ∉ ks) :
    (d.addImage options d.trackLengths index image).run (d.draft options ks ms) =
      .ok ((), d.draft options (addKeys ks (d.imageKeys options index image))
        (ms ++ d.imageMeasurements options index image)) := by
  have htracks : d.trackLengths.length = d.points.length := length_trackLengths _ _
  have hfilter : (image.observations.filterM (isUsable options.minTrackLength d.trackLengths)).run
      (d.draft options ks ms) = .ok (d.usableObservations options image, d.draft options ks ms) :=
    run_filterM fun o ho => run_isUsable (htracks ▸ hpoints o ho) _
  unfold addImage
  rw [StateT.run_bind, hfilter, ok_bind]
  by_cases hnil : d.usableObservations options image = []
  · simp [hnil, imageKeys, imageMeasurements]
  · have hitem : d.cameras[image.camera]? = some d.cameras[image.camera] := List.getElem?_eq_getElem hcamera
    have hshare : (share (.camera image.camera) (pure (.camera options.refine d.cameras[image.camera]))).run
        (d.draft options ks ms) = _ := run_share hw rfl (by rw [blockSpec_camera hitem]; rfl)
    have hext : ks <+: addKey ks (.camera image.camera) := prefix_addKey ks (.camera image.camera)
    have hfresh' : ∀ k ∈ poseKeys options index, k ∉ addKey ks (.camera image.camera) := by
      intro k hk hmem
      rcases mem_addKey.1 hmem with hmem | rfl
      · exact hfresh k hk hmem
      · exact camera_notMem_poseKeys hk
    have hpose := run_addImagePose hindex (hw.extend hext) hfresh'
    have hext' := prefix_addKeys (addKey ks (.camera image.camera)) (poseKeys options index)
    have hready : Ready options index image (addKeys (addKey ks (.camera image.camera)) (poseKeys options index)) :=
      ⟨by simp, fun k hk => by simp [hk]⟩
    have husable : ∀ o ∈ d.usableObservations options image, o.point < d.points.length :=
      fun o ho => hpoints o (List.mem_of_mem_filter ho)
    have hobservations := run_observations hready ((hw.extend hext).extend hext') husable
    -- the camera's id was given out before the pose was added
    rw [idxOf_extend hext' (by simp), Camera.modelAt_eq hitem] at hobservations
    rw [imageKeys_of_ne_nil hnil, addKeys_cons, addKeys_append]
    simp only [List.isEmpty_iff, hnil, if_false, StateT.run_bind, run_item hitem, hshare, hpose, ok_bind]
    exact hobservations

/-- Blocks of a pose are asked for by one image only. -/
theorem eq_of_mem_poseKeys {i j : Nat} {image : Image α} {k : BundleKey} (hj : k ∈ poseKeys options j)
    (hi : k ∈ d.imageKeys options i image) : j = i := by
  obtain ⟨-, rfl | hpose | ⟨o, -, rfl⟩⟩ := mem_imageKeys.1 hi
  · exact absurd hj camera_notMem_poseKeys
  · obtain ⟨-, rfl | rfl⟩ := mem_poseKeys.1 hj <;> simpa using (mem_poseKeys.1 hpose).2
  · simp [mem_poseKeys] at hj

/-! ## Datasets -/

/-- The draft of a whole dataset. -/
theorem run_images [Scalar α] (hd : d.Valid) :
    (d.images.zipIdx.forM fun (image, i) => d.addImage options d.trackLengths i image).run .empty =
      .ok ((), d.draft options (d.keys options) (d.measurements options)) := by
  refine run_zipIdx_forM (d.imageKeys options) (d.imageMeasurements options) (poseKeys options) ?_ ?_ ?_
  · intro i image hindex ks ms hw hfresh
    have himage : image ∈ d.images := List.mem_of_getElem? hindex
    exact run_addImage hindex (hd.camera image himage) (hd.point image himage) hw hfresh
  · intro i image ks hkeys
    exact within_imageMeasurements hkeys
  · intro i j image hne k hj hi
    exact hne (eq_of_mem_poseKeys hj hi)

end BundleDataset

end MultiView
