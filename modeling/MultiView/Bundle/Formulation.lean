import MultiView.Bundle.Dataset
import MultiView.Reconstruction.Draft

/-!
# Bundle adjustment as a problem

Each observation of a point that is seen often enough has a residual block. It reads the image's camera, the point, and
the image's pose unless that is held constant: then the pose is part of the factor. Blocks are added when they are first
needed; cameras and points are shared by images.
-/

namespace MultiView

structure BundleOptions (α : Type) where
  loss : RobustLoss α
  refine : Refinement
  /-- Images whose pose is held constant. -/
  constantPoses : List Nat
  /-- Points that are held constant. -/
  constantPoints : List Nat
  /-- Points with fewer observations are left out. -/
  minTrackLength : Nat

def BundleOptions.default {α : Type} : BundleOptions α := ⟨.none, .default, [], [], 2⟩

/-- The blocks of bundle adjustment. -/
inductive BundleKey where
  | camera (index : Nat)
  | rotation (image : Nat)
  | trans (image : Nat)
  | point (index : Nat)
  deriving DecidableEq, Repr

instance : BlockKey BundleKey where
  name
    | .camera i => s!"cam/{i}"
    | .rotation i => s!"rot/{i}"
    | .trans i => s!"trans/{i}"
    | .point i => s!"point/{i}"

namespace BundleDataset

variable {α : Type}

open Drafting

/-- Add the residual block of an observation. An image whose pose varies has the blocks `pose` for it. -/
def addObservation (d : BundleDataset α) (options : BundleOptions α) (image : Image α) (model : CameraModel)
    (camera : Nat) (pose : Option (Nat × Nat)) (o : Observation α) : Drafting BundleKey α Unit := do
  let point ← sharePoint (.point o.point) (options.constantPoints.contains o.point) d.points o.point
  match pose with
  | some (rotationId, transId) =>
    addResidual (.reprojection model o.uv) [rotationId, transId, point, camera] options.loss
  | none => addResidual (.fixedPose model image.pose o.uv) [point, camera] options.loss

/-- Add the blocks of an image's pose, unless it is held constant. -/
def addImagePose (options : BundleOptions α) (index : Nat) (image : Image α) :
    Drafting BundleKey α (Option (Nat × Nat)) :=
  if options.constantPoses.contains index then return none
  else some <$> addPose (.rotation index) (.trans index) false image.pose

/-- Add what an image needs, if it has an observation of a point that is seen often enough. -/
def addImage (d : BundleDataset α) (options : BundleOptions α) (tracks : List Nat) (index : Nat) (image : Image α) :
    Drafting BundleKey α Unit := do
  let observations ← image.observations.filterM (isUsable options.minTrackLength tracks)
  if observations.isEmpty then return
  let camera ← item d.cameras image.camera
  let cameraId ← share (.camera image.camera) (pure (.camera options.refine camera))
  let pose ← addImagePose options index image
  observations.forM (d.addObservation options image camera.model cameraId pose)

/-- The problem of a dataset, if an observation is left in it. -/
def formulate [Scalar α] (d : BundleDataset α) (options : BundleOptions α) :
    Except (RefineError α) (Formulation α) := do
  let tracks := d.trackLengths
  let addImages := d.images.zipIdx.forM fun (image, i) => d.addImage options tracks i image
  let (_, draft) ← addImages.run .empty
  draft.finish options.minTrackLength

end BundleDataset

end MultiView
