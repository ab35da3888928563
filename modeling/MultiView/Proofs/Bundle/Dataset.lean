import MultiView.Bundle.Dataset
import MultiView.Proofs.Camera.Valid

/-!
# Valid datasets of bundle adjustment

`BundleDataset.validate` accepts exactly the datasets with an image and valid cameras, whose images refer to cameras and
points that exist (`BundleDataset.validate_eq_ok`), and otherwise reports the first thing that is wrong, cameras before
images and in the order of the lists (`BundleDataset.Fault`).
-/

namespace MultiView

namespace BundleDataset

variable {α : Type}

theorem mem_observations {d : BundleDataset α} {o : Observation α} :
    o ∈ d.observations ↔ ∃ image ∈ d.images, o ∈ image.observations := by
  rw [observations, List.mem_flatMap]

theorem checkImage_eq_ok {d : BundleDataset α} {index : Nat} {image : Image α} {u : Unit} :
    d.checkImage index image = .ok u ↔
      image.camera < d.cameras.length ∧ ∀ o ∈ image.observations, o.point < d.points.length := by
  simp only [checkImage, List.forM_eq_forM, bind_eq_ok, exists_unit, require_eq_ok, forM_eq_ok]

/-- The first thing that is wrong with the image at a position. -/
inductive ImageFault (d : BundleDataset α) (index : Nat) (image : Image α) : BundleDatasetError α → Prop
  | camera (hcamera : d.cameras.length ≤ image.camera) :
      ImageFault d index image (.missingCamera index image.camera d.cameras.length)
  | point (hcamera : image.camera < d.cameras.length) {n : Nat} {o : Observation α}
      (ho : Reaches (fun o => o.point < d.points.length) image.observations n o) (hpoint : d.points.length ≤ o.point) :
      ImageFault d index image (.missingPoint index o.point d.points.length)

theorem checkImage_eq_error {d : BundleDataset α} {index : Nat} {image : Image α} {e : BundleDatasetError α} :
    d.checkImage index image = .error e ↔ d.ImageFault index image e := by
  simp only [checkImage, List.forM_eq_forM, bind_eq_error, require_eq_error, require_eq_ok, exists_unit, Nat.not_lt,
    forM_require_lt_eq_error]
  constructor
  · rintro (⟨hcamera, rfl⟩ | ⟨hcamera, n, o, ho, hpoint, rfl⟩)
    · exact .camera hcamera
    · exact .point hcamera ho hpoint
  · intro h
    cases h with
    | camera hcamera => exact .inl ⟨hcamera, rfl⟩
    | point hcamera ho hpoint => exact .inr ⟨hcamera, _, _, ho, hpoint, rfl⟩

variable [Scalar α]

structure Valid (d : BundleDataset α) : Prop where
  images : d.images ≠ []
  cameras : ∀ c ∈ d.cameras, c.Valid
  camera : ∀ image ∈ d.images, image.camera < d.cameras.length
  point : ∀ image ∈ d.images, ∀ o ∈ image.observations, o.point < d.points.length

theorem validate_eq_ok {d : BundleDataset α} {u : Unit} : d.validate = .ok u ↔ d.Valid := by
  have himage : ∀ i image, d.checkImage i image = .ok () ↔ _ := fun _ _ => checkImage_eq_ok
  simp only [validate, bind_eq_ok, exists_unit, require_eq_ok, Camera.checkEach_validate_eq_ok,
    checkEach_eq_ok_of_mem himage]
  constructor
  · rintro ⟨himages, hcameras, h⟩
    exact ⟨himages, hcameras, fun image hi => (h image hi).1, fun image hi => (h image hi).2⟩
  · intro h
    exact ⟨h.images, h.cameras, fun image hi => ⟨h.camera image hi, h.point image hi⟩⟩

theorem make_eq_ok {cameras : List (Camera α)} {images : List (Image α)} {points : List (Vec3 α)}
    {d : BundleDataset α} : make cameras images points = .ok d ↔ d = ⟨cameras, images, points⟩ ∧ d.Valid := by
  simp only [make, bind_eq_ok, exists_unit, validate_eq_ok, pure_eq_ok]
  constructor
  · rintro ⟨h, rfl⟩; exact ⟨rfl, h⟩
  · rintro ⟨rfl, h⟩; exact ⟨h, rfl⟩

/-! ## Faults -/

/-- The first thing that is wrong with a dataset. -/
inductive Fault (d : BundleDataset α) : BundleDatasetError α → Prop
  | noImages (himages : d.images = []) : Fault d .noImages
  | camera (himages : d.images ≠ []) {i : Nat} {c : Camera α} {e : CameraError α}
      (hc : Reaches Camera.Valid d.cameras i c) (hfault : c.Fault e) : Fault d (.invalidCamera i e)
  | image (himages : d.images ≠ []) (hcameras : ∀ c ∈ d.cameras, c.Valid) {i : Nat} {image : Image α}
      {e : BundleDatasetError α}
      (himage : Reaches (fun image => image.camera < d.cameras.length ∧
        ∀ o ∈ image.observations, o.point < d.points.length) d.images i image)
      (hfault : d.ImageFault i image e) : Fault d e

theorem validate_eq_error {d : BundleDataset α} {e : BundleDatasetError α} : d.validate = .error e ↔ d.Fault e := by
  have himage : ∀ i image, d.checkImage i image = .ok () ↔ _ := fun _ _ => checkImage_eq_ok
  simp only [validate, bind_eq_error, require_eq_error, require_eq_ok, exists_unit, not_not,
    Camera.checkEach_validate_eq_error, Camera.checkEach_validate_eq_ok, checkEach_eq_error_iff_reaches himage,
    checkImage_eq_error]
  constructor
  · rintro (⟨himages, rfl⟩ | ⟨himages, ⟨i, c, e', hc, hfault, rfl⟩ | ⟨hcameras, i, image, himage, hfault⟩⟩)
    · exact .noImages himages
    · exact .camera himages hc hfault
    · exact .image himages hcameras himage hfault
  · intro h
    cases h with
    | noImages himages => exact .inl ⟨himages, rfl⟩
    | camera himages hc hfault => exact .inr ⟨himages, .inl ⟨_, _, _, hc, hfault, rfl⟩⟩
    | image himages hcameras himage hfault => exact .inr ⟨himages, .inr ⟨hcameras, _, _, himage, hfault⟩⟩

theorem make_eq_error {cameras : List (Camera α)} {images : List (Image α)} {points : List (Vec3 α)}
    {e : BundleDatasetError α} :
    make cameras images points = .error e ↔ Fault ⟨cameras, images, points⟩ e := by
  simp only [make, bind_eq_error, pure_eq_error, and_false, exists_false, or_false, validate_eq_error]

/-! ## References of valid datasets -/

theorem Valid.observations {d : BundleDataset α} (h : d.Valid) : ∀ o ∈ d.observations, o.point < d.points.length := by
  intro o ho
  obtain ⟨image, himage, ho⟩ := mem_observations.1 ho
  exact h.point image himage o ho

end BundleDataset

end MultiView
