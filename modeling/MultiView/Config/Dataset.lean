import MultiView.Bundle.Dataset
import MultiView.Config.Scene
import MultiView.Rig.Dataset

/-!
# Datasets in configurations

A dataset is read as it is written: references and cameras are not checked, and rotations are not normalized.
-/

namespace MultiView

variable {α : Type} [Scalar α]

def pointsToJson (points : List (Vec3 α)) : Json α := .arr (points.map fun p => .ofScalars p.toList)

/-! ## Bundle adjustment -/

def Image.toJson (image : Image α) : Json α :=
  .obj [("camera_idx", .nat image.camera), ("pose", image.pose.toJson),
    ("observations", .arr (image.observations.map Observation.toJson))]

def Image.ofJson? (j : Json α) : Option (Image α) := do
  let fields ← j.record? ["camera_idx", "pose", "observations"]
  let camera ← Json.required fields "camera_idx" Json.nat?
  let pose ← Json.required fields "pose" Pose.ofJson?
  let observations ← Json.required fields "observations" (Json.list? Observation.ofJson?)
  return ⟨camera, pose, observations⟩

def BundleDataset.toJson (d : BundleDataset α) : Json α :=
  .obj [("cameras", .arr (d.cameras.map Camera.toJson)), ("images", .arr (d.images.map Image.toJson)),
    ("points", pointsToJson d.points)]

def BundleDataset.ofJson? (j : Json α) : Option (BundleDataset α) := do
  let fields ← j.record? ["cameras", "images", "points"]
  let cameras ← Json.required fields "cameras" (Json.list? Camera.ofJson?)
  let images ← Json.required fields "images" (Json.list? Image.ofJson?)
  let points ← Json.required fields "points" (Json.list? Json.vec3?)
  return ⟨cameras, images, points⟩

/-! ## Rigs -/

def MountedCamera.toJson (c : MountedCamera α) : Json α :=
  .obj [("camera_idx", .nat c.camera), ("cam_from_rig", c.pose.toJson)]

def MountedCamera.ofJson? (j : Json α) : Option (MountedCamera α) := do
  let fields ← j.record? ["camera_idx", "cam_from_rig"]
  let camera ← Json.required fields "camera_idx" Json.nat?
  let pose ← Json.required fields "cam_from_rig" Pose.ofJson?
  return ⟨camera, pose⟩

def Rig.toJson (r : Rig α) : Json α := .obj [("cameras", .arr (r.cameras.map MountedCamera.toJson))]

def Rig.ofJson? (j : Json α) : Option (Rig α) := do
  let fields ← j.record? ["cameras"]
  let cameras ← Json.required fields "cameras" (Json.list? MountedCamera.ofJson?)
  return ⟨cameras⟩

def SnapshotImage.toJson (image : SnapshotImage α) : Json α :=
  .obj [("rig_camera", .nat image.mount), ("observations", .arr (image.observations.map Observation.toJson))]

def SnapshotImage.ofJson? (j : Json α) : Option (SnapshotImage α) := do
  let fields ← j.record? ["rig_camera", "observations"]
  let mount ← Json.required fields "rig_camera" Json.nat?
  let observations ← Json.required fields "observations" (Json.list? Observation.ofJson?)
  return ⟨mount, observations⟩

def Snapshot.toJson (s : Snapshot α) : Json α :=
  .obj [("rig_idx", .nat s.rig), ("rig_from_world", s.pose.toJson),
    ("images", .arr (s.images.map SnapshotImage.toJson))]

def Snapshot.ofJson? (j : Json α) : Option (Snapshot α) := do
  let fields ← j.record? ["rig_idx", "rig_from_world", "images"]
  let rig ← Json.required fields "rig_idx" Json.nat?
  let pose ← Json.required fields "rig_from_world" Pose.ofJson?
  let images ← Json.required fields "images" (Json.list? SnapshotImage.ofJson?)
  return ⟨rig, pose, images⟩

def RigDataset.toJson (d : RigDataset α) : Json α :=
  .obj [("cameras", .arr (d.cameras.map Camera.toJson)), ("rigs", .arr (d.rigs.map Rig.toJson)),
    ("snapshots", .arr (d.snapshots.map Snapshot.toJson)), ("points", pointsToJson d.points)]

def RigDataset.ofJson? (j : Json α) : Option (RigDataset α) := do
  let fields ← j.record? ["cameras", "rigs", "snapshots", "points"]
  let cameras ← Json.required fields "cameras" (Json.list? Camera.ofJson?)
  let rigs ← Json.required fields "rigs" (Json.list? Rig.ofJson?)
  let snapshots ← Json.required fields "snapshots" (Json.list? Snapshot.ofJson?)
  let points ← Json.required fields "points" (Json.list? Json.vec3?)
  return ⟨cameras, rigs, snapshots, points⟩

end MultiView
