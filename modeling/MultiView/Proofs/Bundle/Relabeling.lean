import Mathlib
import MultiView.Proofs.Bundle.Refine
import MultiView.Proofs.Reconstruction.Renaming

/-!
# Labels and order in bundle adjustment

Renumbering the cameras, the images and the points of a dataset, and reordering the observations of its images, changes
neither whether there is a formulation nor, up to names and order, what it is (`BundleDataset.formulate_relabeled`).
-/

namespace MultiView

open Measurement

/-- New numbers for cameras, images and points. -/
structure Relabeling where
  camera : Equiv.Perm Nat
  image : Equiv.Perm Nat
  point : Equiv.Perm Nat

variable {α : Type}

/-! ## What is renumbered -/

/-- The observation of a point with a new number. -/
def Observation.relabel (π : Equiv.Perm Nat) (o : Observation α) : Observation α := ⟨π o.point, o.uv⟩

def BundleKey.relabel (σ : Relabeling) : BundleKey → BundleKey
  | .camera i => .camera (σ.camera i)
  | .rotation i => .rotation (σ.image i)
  | .trans i => .trans (σ.image i)
  | .point i => .point (σ.point i)

theorem BundleKey.relabel_injective (σ : Relabeling) : Function.Injective (relabel σ) := by
  intro j k h
  cases j <;> cases k <;> simp_all [relabel]

/-- The same image, with a new number of its camera and of each of its points, and its observations in any order. -/
structure Image.Relabeled (σ : Relabeling) (a b : Image α) : Prop where
  camera : b.camera = σ.camera a.camera
  pose : b.pose = a.pose
  observations : b.observations.Perm (a.observations.map (Observation.relabel σ.point))

/-- The same dataset, with new numbers. -/
structure BundleDataset.Relabeled (σ : Relabeling) (d e : BundleDataset α) : Prop where
  cameras : ∀ i, e.cameras[σ.camera i]? = d.cameras[i]?
  images : ∀ i, Option.Rel (Image.Relabeled σ) d.images[i]? e.images[σ.image i]?
  points : ∀ i, e.points[σ.point i]? = d.points[i]?

/-- The same options, with new numbers of what is held constant. -/
structure BundleOptions.Relabeled (σ : Relabeling) (a b : BundleOptions α) : Prop where
  loss : b.loss = a.loss
  refine : b.refine = a.refine
  minTrackLength : b.minTrackLength = a.minTrackLength
  constantPoses : ∀ i, σ.image i ∈ b.constantPoses ↔ i ∈ a.constantPoses
  constantPoints : ∀ i, σ.point i ∈ b.constantPoints ↔ i ∈ a.constantPoints

namespace BundleDataset

variable {σ : Relabeling} {d e : BundleDataset α} {options options' : BundleOptions α}

/-! ## Validity -/

theorem Relabeled.valid [Scalar α] (h : d.Relabeled σ e) (hd : d.Valid) : e.Valid := by
  have himage : ∀ b ∈ e.images, ∃ a ∈ d.images, a.Relabeled σ b := fun b hb => by
    obtain ⟨j, hj⟩ := List.getElem?_of_mem hb
    obtain ⟨a, ha, hrel⟩ := exists_getElem?_symm_of_rel h.images hj
    exact ⟨a, List.mem_of_getElem? ha, hrel⟩
  refine ⟨?_, fun c hc => hd.cameras c (mem_of_permuted h.cameras hc), fun b hb => ?_, fun b hb o ho => ?_⟩
  · obtain ⟨a, ha⟩ := List.exists_mem_of_ne_nil _ hd.images
    obtain ⟨i, hi⟩ := List.getElem?_of_mem ha
    obtain ⟨b, hb, -⟩ := exists_getElem?_of_rel h.images hi
    exact List.ne_nil_of_mem (List.mem_of_getElem? hb)
  · obtain ⟨a, ha, hrel⟩ := himage b hb
    rw [hrel.camera, lt_length_iff_of_permuted h.cameras]
    exact hd.camera a ha
  · obtain ⟨a, ha, hrel⟩ := himage b hb
    obtain ⟨o', ho', rfl⟩ := List.mem_map.1 (hrel.observations.mem_iff.1 ho)
    exact (lt_length_iff_of_permuted h.points _).2 (hd.point a ha o' ho')

/-! ## Tracks -/

theorem Relabeled.observations (h : d.Relabeled σ e) :
    e.observations.Perm (d.observations.map (Observation.relabel σ.point)) := by
  rw [BundleDataset.observations, BundleDataset.observations, List.map_flatMap,
    ← flatMap_zipIdx _ e.images, ← flatMap_zipIdx _ d.images]
  exact perm_flatMap_zipIdx (f := fun x => x.1.observations.map (Observation.relabel σ.point))
    (g := fun x => x.1.observations) h.images fun i a b _ hrel => hrel.observations

theorem Relabeled.trackLengths (h : d.Relabeled σ e) (i : Nat) : e.trackLengths[σ.point i]? = d.trackLengths[i]? := by
  have hcount : (e.observations.countP fun o => o.point = σ.point i) = d.observations.countP fun o => o.point = i := by
    rw [h.observations.countP_eq, List.countP_map]
    simp [Function.comp_def, Observation.relabel]
  by_cases hi : i < d.points.length
  · have hi' : σ.point i < e.points.length := (lt_length_iff_of_permuted h.points i).2 hi
    rw [BundleDataset.trackLengths, BundleDataset.trackLengths, trackLengths_getElem? hi, trackLengths_getElem? hi',
      hcount]
  · have hi' : ¬σ.point i < e.points.length := mt (lt_length_iff_of_permuted h.points i).1 hi
    rw [List.getElem?_eq_none, List.getElem?_eq_none]
    · rwa [BundleDataset.trackLengths, length_trackLengths, ← not_lt]
    · rwa [BundleDataset.trackLengths, length_trackLengths, ← not_lt]

theorem Relabeled.usable (h : d.Relabeled σ e) (asked : Nat) (o : Observation α) :
    usable asked e.trackLengths (o.relabel σ.point) = usable asked d.trackLengths o := by
  simp only [MultiView.usable, Observation.relabel, List.getD_eq_getElem?_getD, h.trackLengths]

/-! ## Plans -/

theorem Relabeled.blockSpec (h : d.Relabeled σ e) (hoptions : options.Relabeled σ options') (k : BundleKey) :
    e.blockSpec options' (k.relabel σ) = d.blockSpec options k := by
  have hpose : ∀ (i : Nat) (make : Pose α → BlockSpec α), (e.images[σ.image i]?.map fun b => make b.pose) =
      d.images[i]?.map fun a => make a.pose := fun i make => by
    have hrel := h.images i
    generalize d.images[i]? = a, e.images[σ.image i]? = b at hrel ⊢
    cases hrel with
    | none => rfl
    | some hrel => rw [Option.map_some, Option.map_some, hrel.pose]
  cases k with
  | camera i => rw [BundleKey.relabel, BundleDataset.blockSpec, BundleDataset.blockSpec, h.cameras, hoptions.refine]
  | rotation i => exact congrArg BlockSpec.orBlank (hpose i _)
  | trans i => exact congrArg BlockSpec.orBlank (hpose i _)
  | point i =>
    have hconstant : options'.constantPoints.contains (σ.point i) = options.constantPoints.contains i := by
      rw [Bool.eq_iff_iff, List.contains_iff_mem, List.contains_iff_mem, hoptions.constantPoints]
    rw [BundleKey.relabel, BundleDataset.blockSpec, BundleDataset.blockSpec, h.points, hconstant]

theorem Relabeled.measurement (h : d.Relabeled σ e) (hoptions : options.Relabeled σ options') {a b : Image α}
    (hrel : a.Relabeled σ b) (i : Nat) (o : Observation α) :
    e.measurement options' (σ.image i) b (o.relabel σ.point) =
      (d.measurement options i a o).rename (BundleKey.relabel σ) := by
  have hmodel : Camera.modelAt e.cameras b.camera = Camera.modelAt d.cameras a.camera := by
    rw [Camera.modelAt, Camera.modelAt, hrel.camera, h.cameras]
  by_cases hi : options.constantPoses.contains i = true
  · have hi' : options'.constantPoses.contains (σ.image i) = true :=
      List.contains_iff_mem.2 ((hoptions.constantPoses i).2 (List.contains_iff_mem.1 hi))
    rw [measurement_of_constant hi, measurement_of_constant hi', hmodel, hrel.camera, hrel.pose]
    rfl
  · have hi' : ¬options'.constantPoses.contains (σ.image i) = true := fun hmem =>
      hi (List.contains_iff_mem.2 ((hoptions.constantPoses i).1 (List.contains_iff_mem.1 hmem)))
    rw [measurement_of_variable hi, measurement_of_variable hi', hmodel, hrel.camera]
    rfl

theorem Relabeled.measurements (h : d.Relabeled σ e) (hoptions : options.Relabeled σ options') :
    (e.measurements options').Perm ((d.measurements options).map (rename (BundleKey.relabel σ))) := by
  rw [BundleDataset.measurements, BundleDataset.measurements, List.map_flatMap]
  refine perm_flatMap_zipIdx h.images fun i a b _ hrel => ?_
  have husable : (e.usableObservations options' b).Perm
      ((d.usableObservations options a).map (Observation.relabel σ.point)) := by
    refine (hrel.observations.filter _).trans (List.Perm.of_eq ?_)
    rw [List.filter_map, usableObservations, hoptions.minTrackLength]
    congr 1
    exact List.filter_congr fun o _ => h.usable options.minTrackLength o
  refine (husable.map _).trans (List.Perm.of_eq ?_)
  simp only [imageMeasurements, List.map_map]
  exact List.map_congr_left fun o _ => h.measurement hoptions hrel i o

theorem Relabeled.renames (h : d.Relabeled σ e) (hoptions : options.Relabeled σ options') :
    Renames (BundleKey.relabel σ) (d.blockSpec options) (e.blockSpec options') (d.keys options) (e.keys options')
      (d.measurements options) (e.measurements options') :=
  .of_measurements (BundleKey.relabel_injective σ) (h.blockSpec hoptions) (h.measurements hoptions)
    (nodup_addKeys List.nodup_nil _) (nodup_addKeys List.nodup_nil _) (fun _ => mem_keys) fun _ => mem_keys

/-! ## Formulations -/

theorem Relabeled.measurements_eq_nil (h : d.Relabeled σ e) (hoptions : options.Relabeled σ options') :
    e.measurements options' = [] ↔ d.measurements options = [] := by
  rw [← List.length_eq_zero_iff, (h.measurements hoptions).length_eq, List.length_map, List.length_eq_zero_iff]

/-- Neither numbers nor the order of observations count for what is formulated. -/
theorem formulate_relabeled :
    (∀ {α : Type} [Scalar α] (σ : Relabeling) (cameras : List (Camera α)) (images : List (Image α))
        (points : List (Vec3 α)) (d e : BundleDataset α) (options options' : BundleOptions α),
      make cameras images points = .ok d → d.Relabeled σ e → options.Relabeled σ options' →
      make e.cameras e.images e.points = .ok e ∧
        ((∃ f, d.formulate options = .ok f) ↔ ∃ g, e.formulate options' = .ok g) ∧
        ∀ f g, d.formulate options = .ok f → e.formulate options' = .ok g → f.SameUpToOrder g) ∧
    ∀ f g : Formulation ℝ, f.SameUpToOrder g →
      ∃ c, f.problem.cost f.initial = .ok c ∧ g.problem.cost g.initial = .ok c := by
  refine ⟨fun σ cameras images points d e options options' hd h hoptions => ?_,
    fun _ _ => Formulation.SameUpToOrder.cost⟩
  obtain ⟨-, hvalid⟩ := make_eq_ok.1 hd
  have hvalid' : e.Valid := h.valid hvalid
  simp only [formulate_eq_ok hvalid, formulate_eq_ok hvalid', ne_eq, h.measurements_eq_nil hoptions]
  refine ⟨make_eq_ok.2 ⟨rfl, hvalid'⟩, ?_, ?_⟩
  · simp only [exists_and_left, exists_eq, and_true]
  · rintro _ _ ⟨-, rfl⟩ ⟨-, rfl⟩
    exact (h.renames hoptions).sameUpToOrder (consistent hvalid) (consistent hvalid')

/-! ### A scene -/

/-- Two points, the second of which only one of two cameras sees. -/
noncomputable def twoCameras : BundleDataset ℝ where
  cameras := [⟨.simplePinhole, [1, 0, 0]⟩, ⟨.pinhole, [1, 1, 0, 0]⟩]
  images := [⟨0, .one, [⟨0, ⟨1, 0⟩⟩, ⟨1, ⟨0, 1⟩⟩]⟩, ⟨1, .one, [⟨0, ⟨0, 1⟩⟩]⟩]
  points := [⟨0, 0, 1⟩, ⟨1, 0, 1⟩]

/-- The same with the other of two numbers for each camera, each image and each point. -/
noncomputable def twoCamerasSwapped : BundleDataset ℝ where
  cameras := [⟨.pinhole, [1, 1, 0, 0]⟩, ⟨.simplePinhole, [1, 0, 0]⟩]
  images := [⟨0, .one, [⟨1, ⟨0, 1⟩⟩]⟩, ⟨1, .one, [⟨0, ⟨0, 1⟩⟩, ⟨1, ⟨1, 0⟩⟩]⟩]
  points := [⟨1, 0, 1⟩, ⟨0, 0, 1⟩]

def swaps : Relabeling := ⟨.swap 0 1, .swap 0 1, .swap 0 1⟩

theorem valid_twoCameras : twoCameras.Valid where
  images := List.cons_ne_nil _ _
  cameras := by
    intro c hc
    have hpos : Scalar.isPositive (1 : ℝ) = true := decide_eq_true (p := (0 : ℝ) < 1) one_pos
    simp only [twoCameras, List.mem_cons, List.not_mem_nil, or_false] at hc
    obtain rfl | rfl := hc
    · exact ⟨rfl, by simp [CameraModel.focalIndices, Camera.param, hpos]⟩
    · exact ⟨rfl, by simp [CameraModel.focalIndices, Camera.param, hpos]⟩
  camera := by simp [twoCameras]
  point := by simp [twoCameras]

theorem relabeled_twoCameras : twoCameras.Relabeled swaps twoCamerasSwapped where
  cameras
    | 0 | 1 => rfl
    | n + 2 => by rw [swaps, Equiv.swap_apply_of_ne_of_ne (by simp) (by simp)]; rfl
  images
    | 0 => .some ⟨rfl, rfl, .swap _ _ _⟩
    | 1 => .some ⟨rfl, rfl, .refl _⟩
    | n + 2 => by rw [swaps, Equiv.swap_apply_of_ne_of_ne (by simp) (by simp)]; exact .none
  points
    | 0 | 1 => rfl
    | n + 2 => by rw [swaps, Equiv.swap_apply_of_ne_of_ne (by simp) (by simp)]; rfl

/-- With one image and one point held constant. -/
theorem formulate_relabeled_twoCameras : ∃ f g c, twoCameras.formulate ⟨.none, .default, [0], [1], 1⟩ = .ok f ∧
    twoCamerasSwapped.formulate ⟨.none, .default, [1], [0], 1⟩ = .ok g ∧ f.SameUpToOrder g ∧
    f.problem.cost f.initial = .ok c ∧ g.problem.cost g.initial = .ok c := by
  have hoptions : (⟨.none, .default, [0], [1], 1⟩ : BundleOptions ℝ).Relabeled swaps ⟨.none, .default, [1], [0], 1⟩ :=
    ⟨rfl, rfl, rfl, fun i => by simp [swaps, Equiv.swap_apply_eq_iff],
      fun i => by simp [swaps, Equiv.swap_apply_eq_iff]⟩
  obtain ⟨f, hf⟩ : ∃ f, twoCameras.formulate ⟨.none, .default, [0], [1], 1⟩ = .ok f :=
    ⟨_, (formulate_eq_ok valid_twoCameras).2 ⟨List.cons_ne_nil _ _, rfl⟩⟩
  obtain ⟨-, hiff, hsame⟩ := formulate_relabeled.1 swaps _ _ _ twoCameras twoCamerasSwapped _ _
    (make_eq_ok.2 ⟨rfl, valid_twoCameras⟩) relabeled_twoCameras hoptions
  obtain ⟨g, hg⟩ := hiff.1 ⟨f, hf⟩
  obtain ⟨c, hc, hc'⟩ := formulate_relabeled.2 f g (hsame f g hf hg)
  exact ⟨f, g, c, hf, hg, hsame f g hf hg, hc, hc'⟩

end BundleDataset

end MultiView
