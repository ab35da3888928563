import MultiView.Reconstruction.Draft
import MultiView.Rig.Dataset

/-!
# Rig adjustment as a problem

Each observation of a point that is seen often enough has a residual block. It reads the rig pose of its snapshot, the
pose of the camera on the rig, which all snapshots of the rig share, the point, and the camera. The reference camera of
a rig never moves on it. Blocks are added when they are first needed.
-/

namespace MultiView

structure RigOptions (α : Type) where
  loss : RobustLoss α
  refine : Refinement
  /-- Refine the poses of cameras on their rigs, the reference cameras apart. -/
  refineRelativePoses : Bool
  /-- Snapshots whose rig pose is held constant. -/
  constantRigPoses : List Nat
  /-- Points that are held constant. -/
  constantPoints : List Nat
  /-- Points with fewer observations are left out. -/
  minTrackLength : Nat

def RigOptions.default {α : Type} : RigOptions α := ⟨.none, .default, true, [], [], 2⟩

/-- The blocks of rig adjustment. -/
inductive RigKey where
  | rigRotation (snapshot : Nat)
  | rigTrans (snapshot : Nat)
  | camera (index : Nat)
  | relRotation (rig mount : Nat)
  | relTrans (rig mount : Nat)
  | point (index : Nat)
  deriving DecidableEq, Repr

instance : BlockKey RigKey where
  name
    | .rigRotation s => s!"rig_rot/{s}"
    | .rigTrans s => s!"rig_trans/{s}"
    | .camera i => s!"cam/{i}"
    | .relRotation r c => s!"rel_rot/{r}/{c}"
    | .relTrans r c => s!"rel_trans/{r}/{c}"
    | .point i => s!"point/{i}"

namespace RigDataset

variable {α : Type}

open Drafting

/-- Is the pose of a camera on its rig held constant? -/
def isRelativeConstant (options : RigOptions α) (mount : Nat) : Bool := !options.refineRelativePoses || mount == 0

/-- Add the residual block of an observation, if its point is seen often enough. -/
def addObservation (d : RigDataset α) (options : RigOptions α) (tracks : List Nat) (model : CameraModel)
    (rigPose relPose : Nat × Nat) (camera : Nat) (o : Observation α) : Drafting RigKey α Unit := do
  if ← isUsable options.minTrackLength tracks o then
    let point ← sharePoint (.point o.point) (options.constantPoints.contains o.point) d.points o.point
    addResidual (.rig model o.uv) [rigPose.1, rigPose.2, relPose.1, relPose.2, point, camera] options.loss

/-- Add what an image of a snapshot needs. -/
def addImage (d : RigDataset α) (options : RigOptions α) (tracks : List Nat) (s : Snapshot α) (rig : Rig α)
    (rigPose : Nat × Nat) (image : SnapshotImage α) : Drafting RigKey α Unit := do
  let mounted ← item rig.cameras image.mount
  let camera ← item d.cameras mounted.camera
  let cameraId ← share (.camera mounted.camera) (pure (.camera options.refine camera))
  let relPose ← sharePose (.relRotation s.rig image.mount) (.relTrans s.rig image.mount)
    (isRelativeConstant options image.mount) mounted.pose
  image.observations.forM (d.addObservation options tracks camera.model rigPose relPose cameraId)

/-- Has an image an observation of a point that is seen often enough? -/
def isImageUsable (options : RigOptions α) (tracks : List Nat) (image : SnapshotImage α) :
    Drafting RigKey α Bool :=
  image.observations.anyM (isUsable options.minTrackLength tracks)

/-- Add what a snapshot needs, if one of its images is usable. -/
def addSnapshot (d : RigDataset α) (options : RigOptions α) (tracks : List Nat) (index : Nat) (s : Snapshot α) :
    Drafting RigKey α Unit := do
  let rig ← item d.rigs s.rig
  if ← s.images.anyM (isImageUsable options tracks) then
    let rigPose ← addPose (.rigRotation index) (.rigTrans index) (options.constantRigPoses.contains index) s.pose
    let images ← s.images.filterM (isImageUsable options tracks)
    images.forM (d.addImage options tracks s rig rigPose)

/-- The problem of a dataset, if an observation is left in it. -/
def formulate [Scalar α] (d : RigDataset α) (options : RigOptions α) : Except (RefineError α) (Formulation α) := do
  let tracks := d.trackLengths
  let addSnapshots := d.snapshots.zipIdx.forM fun (s, i) => d.addSnapshot options tracks i s
  let (_, draft) ← addSnapshots.run .empty
  draft.finish options.minTrackLength

end RigDataset

end MultiView
