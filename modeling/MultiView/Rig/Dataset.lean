import MultiView.Reconstruction.Basic

/-!
# Datasets of rigs

A rig is a rigid assembly of cameras, each at a pose relative to the rig; the first is the reference. A snapshot is one
capture of a rig: the rig's pose in the world and what its cameras saw. `RigDataset.validate` accepts datasets with a
snapshot, valid cameras, rigs that have cameras, and references to existing things only.
-/

namespace MultiView

/-- A camera mounted on a rig. -/
structure MountedCamera (α : Type) where
  camera : Nat
  /-- From the rig's frame to the camera's. -/
  pose : Pose α

structure Rig (α : Type) where
  cameras : List (MountedCamera α)

/-- What one camera of a rig saw. -/
structure SnapshotImage (α : Type) where
  /-- The position of the camera on the rig. -/
  mount : Nat
  observations : List (Observation α)

/-- One capture of a rig. -/
structure Snapshot (α : Type) where
  rig : Nat
  /-- From the world to the rig's frame. -/
  pose : Pose α
  images : List (SnapshotImage α)

structure RigDataset (α : Type) where
  cameras : List (Camera α)
  rigs : List (Rig α)
  snapshots : List (Snapshot α)
  points : List (Vec3 α)

inductive RigDatasetError (α : Type) where
  | noSnapshots
  | invalidCamera (index : Nat) (error : CameraError α)
  | emptyRig (rig : Nat)
  | missingCamera (rig camera count : Nat)
  | missingRig (snapshot rig count : Nat)
  | missingMount (snapshot mount rig count : Nat)
  | missingPoint (snapshot point count : Nat)

def RigDatasetError.message {α : Type} [NumberText α] : RigDatasetError α → String
  | noSnapshots => "need at least one snapshot"
  | invalidCamera index error => s!"camera {index}: {error.message}"
  | emptyRig rig => s!"rig {rig} has no cameras"
  | missingCamera rig camera count => s!"rig {rig} references camera {camera}, but only {count} cameras exist"
  | missingRig snapshot rig count => s!"snapshot {snapshot} references rig {rig}, but only {count} rigs exist"
  | missingMount snapshot mount rig count =>
    s!"snapshot {snapshot} references rig camera {mount}, but rig {rig} has {count} cameras"
  | missingPoint snapshot point count => s!"snapshot {snapshot} observes point {point}, but only {count} points exist"

namespace RigDataset

variable {α : Type}

/-- All observations, in order. -/
def observations (d : RigDataset α) : List (Observation α) :=
  d.snapshots.flatMap fun s => s.images.flatMap (·.observations)

/-- The number of observations of each point. -/
def trackLengths (d : RigDataset α) : List Nat := MultiView.trackLengths d.points.length d.observations

variable [Scalar α]

/-- Has a rig cameras, all of which exist? -/
def checkRig (d : RigDataset α) (index : Nat) (rig : Rig α) : Except (RigDatasetError α) Unit := do
  require (rig.cameras ≠ []) (.emptyRig index)
  rig.cameras.forM fun c => require (c.camera < d.cameras.length) (.missingCamera index c.camera d.cameras.length)

/-- Does an image of a snapshot refer to a camera of the rig and to existing points only? -/
def checkImage (d : RigDataset α) (index : Nat) (s : Snapshot α) (rig : Rig α) (image : SnapshotImage α) :
    Except (RigDatasetError α) Unit := do
  require (image.mount < rig.cameras.length) (.missingMount index image.mount s.rig rig.cameras.length)
  image.observations.forM fun o => require (o.point < d.points.length) (.missingPoint index o.point d.points.length)

/-- Does a snapshot's rig exist, and are its images in order? -/
def checkSnapshot (d : RigDataset α) (index : Nat) (s : Snapshot α) : Except (RigDatasetError α) Unit := do
  let rig ← orFail (.missingRig index s.rig d.rigs.length) d.rigs[s.rig]?
  s.images.forM (d.checkImage index s rig)

def validate (d : RigDataset α) : Except (RigDatasetError α) Unit := do
  require (d.snapshots ≠ []) .noSnapshots
  checkEach (fun i c => c.validate.mapError (.invalidCamera i)) 0 d.cameras
  checkEach d.checkRig 0 d.rigs
  checkEach d.checkSnapshot 0 d.snapshots

/-- The dataset of cameras, rigs, snapshots and points, if it is valid. -/
def make (cameras : List (Camera α)) (rigs : List (Rig α)) (snapshots : List (Snapshot α)) (points : List (Vec3 α)) :
    Except (RigDatasetError α) (RigDataset α) := do
  let d : RigDataset α := ⟨cameras, rigs, snapshots, points⟩
  d.validate
  return d

end RigDataset

end MultiView
