import MultiView.Camera.Model
import MultiView.Geometry.Pose
import MultiView.Synthetic.Noise

/-!
# Synthetic scenes

Points, cameras and observations with known truth. Poses map the world to the camera.
-/

namespace MultiView

/-- A point seen at a pixel. -/
structure Observation (α : Type) where
  point : Nat
  uv : Vec2 α

namespace Scene

variable {α : Type} [Scalar α]

/-- The coordinate of point `i` along an axis that runs from `low` to `high`. -/
def boxCoordinate (seed : UInt64) (low high : α) (i axis : Nat) : α :=
  low + SampleKey.sample (SampleKey.mix seed i axis) * (high - low)

/-- `n` points of the box between two corners. -/
def pointsInBox (n : Nat) (low high : Vec3 α) (seed : UInt64) : List (Vec3 α) :=
  (List.range n).map fun i =>
    ⟨boxCoordinate seed low.x high.x i 0, boxCoordinate seed low.y high.y i 1, boxCoordinate seed low.z high.z i 2⟩

/-- The angle of camera `i` of `n` on an arc: the cameras divide the arc evenly around angle zero. -/
def arcAngle (n : Nat) (arc : α) (i : Nat) : α :=
  (if 1 < n then Scalar.ofNat i / Scalar.ofNat (n - 1) - Scalar.half else 0) * arc

/-- The place of camera `i` of `n` on a horizontal arc around `target`, which is on its `-z` side at angle zero. -/
def arcEye (n : Nat) (radius arc : α) (target : Vec3 α) (i : Nat) : Vec3 α :=
  let angle := arcAngle n arc i
  target + Vec3.scale ⟨Scalar.sin angle, 0, -Scalar.cos angle⟩ radius

/-- The poses of `n` cameras on an arc, all looking at `target`. -/
def posesOnArc (n : Nat) (radius arc : α) (target : Vec3 α) : List (Pose α) :=
  (List.range n).map fun i => Pose.lookAt (arcEye n radius arc target i) target

/-- What a camera sees of a point: nothing if it is at or behind the camera plane. -/
def observe (project : Vec2 α → Vec2 α) (pose : Pose α) (i : Nat) (p : Vec3 α) : Option (Observation α) :=
  let q := pose.apply p
  if q.z ≤ 0 then none else some ⟨i, project q.perspective⟩

/-- The observations of points by a camera, in order. -/
def projectPoints (project : Vec2 α → Vec2 α) (pose : Pose α) (points : List (Vec3 α)) : List (Observation α) :=
  points.zipIdx.filterMap fun (p, i) => observe project pose i p

/-- The observations with the noise of an image. -/
def addNoise (noise : PixelNoise α) (image : Nat) (observations : List (Observation α)) : List (Observation α) :=
  observations.map fun o => ⟨o.point, noise.apply image o.point o.uv⟩

/-- The observations of points by a camera model with parameters, whose number has to be right if any point is in
front of the camera. -/
def projectPoints? (model : CameraModel) (params : List α) (pose : Pose α) (points : List (Vec3 α)) :
    Option (List (Observation α)) :=
  let seen := projectPoints (model.lens params).project pose points
  if seen.isEmpty ∨ params.length = model.numParams then some seen else none

/-- The normalized image points of a point in a camera at the world frame and in a camera at `pose`, if it is in front
of both. -/
def correspondence? (pose : Pose α) (p : Vec3 α) : Option (Vec2 α × Vec2 α) :=
  let q := pose.apply p
  if p.z ≤ 0 ∨ q.z ≤ 0 then none else some (p.perspective, q.perspective)

/-- The correspondences of points between two views, as one list per view. -/
def twoViewCorrespondences (points : List (Vec3 α)) (pose : Pose α) : List (Vec2 α) × List (Vec2 α) :=
  (points.filterMap (correspondence? pose)).unzip

end Scene

end MultiView
