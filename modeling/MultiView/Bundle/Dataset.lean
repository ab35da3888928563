import MultiView.Reconstruction.Basic

/-!
# Datasets of bundle adjustment

Cameras, images with their poses and observations, and points. `BundleDataset.validate` accepts datasets with an image,
valid cameras, and references to existing cameras and points only.
-/

namespace MultiView

/-- One image: its camera, its world-to-camera pose, and the points that it sees. -/
structure Image (α : Type) where
  camera : Nat
  pose : Pose α
  observations : List (Observation α)

structure BundleDataset (α : Type) where
  cameras : List (Camera α)
  images : List (Image α)
  points : List (Vec3 α)

inductive BundleDatasetError (α : Type) where
  | noImages
  | invalidCamera (index : Nat) (error : CameraError α)
  | missingCamera (image camera count : Nat)
  | missingPoint (image point count : Nat)

def BundleDatasetError.message {α : Type} [NumberText α] : BundleDatasetError α → String
  | noImages => "need at least one image"
  | invalidCamera index error => s!"camera {index}: {error.message}"
  | missingCamera image camera count => s!"image {image} references camera {camera}, but only {count} cameras exist"
  | missingPoint image point count => s!"image {image} observes point {point}, but only {count} points exist"

namespace BundleDataset

variable {α : Type}

/-- All observations, in order. -/
def observations (d : BundleDataset α) : List (Observation α) := d.images.flatMap (·.observations)

/-- The number of observations of each point. -/
def trackLengths (d : BundleDataset α) : List Nat := MultiView.trackLengths d.points.length d.observations

variable [Scalar α]

/-- Does an image refer to an existing camera and to existing points only? -/
def checkImage (d : BundleDataset α) (index : Nat) (image : Image α) : Except (BundleDatasetError α) Unit := do
  require (image.camera < d.cameras.length) (.missingCamera index image.camera d.cameras.length)
  image.observations.forM fun o => require (o.point < d.points.length) (.missingPoint index o.point d.points.length)

def validate (d : BundleDataset α) : Except (BundleDatasetError α) Unit := do
  require (d.images ≠ []) .noImages
  checkEach (fun i c => c.validate.mapError (.invalidCamera i)) 0 d.cameras
  checkEach d.checkImage 0 d.images

/-- The dataset of cameras, images and points, if it is valid. -/
def make (cameras : List (Camera α)) (images : List (Image α)) (points : List (Vec3 α)) :
    Except (BundleDatasetError α) (BundleDataset α) := do
  let d : BundleDataset α := ⟨cameras, images, points⟩
  d.validate
  return d

end BundleDataset

end MultiView
