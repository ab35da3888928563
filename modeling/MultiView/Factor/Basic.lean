import MultiView.Camera.Model
import MultiView.Check
import MultiView.Geometry.Pose
import MultiView.Manifold

/-!
# Factors

A factor is one measurement together with the rule that predicts it from parameter blocks. Its residual is prediction
minus observation, and for two views the squared Sampson error. `layout` lists the blocks that it reads, in order.

`residual` reads blocks by position and is a total function; `evaluate` first checks the number and the lengths of the
blocks. Degenerate geometry is not trapped: it shows as numbers that are not finite.
-/

namespace MultiView

inductive Factor (α : Type) where
  /-- A pixel, seen from a variable pose. -/
  | reprojection (model : CameraModel) (uv : Vec2 α)
  /-- A pixel, seen from a known pose. -/
  | fixedPose (model : CameraModel) (pose : Pose α) (uv : Vec2 α)
  /-- A pixel, seen by a camera mounted on a rig. -/
  | rig (model : CameraModel) (uv : Vec2 α)
  /-- The normalized image points of one point in two views. -/
  | relativePose (x1 x2 : Vec2 α)

/-- The part that a parameter block plays in a factor. -/
inductive Role where
  | rotation
  | trans
  | rigRotation
  | rigTrans
  | relRotation
  | relTrans
  | point
  | intrinsics
  deriving DecidableEq, Repr

def Role.name : Role → String
  | rotation => "rotation"
  | trans => "translation"
  | rigRotation => "rig rotation"
  | rigTrans => "rig translation"
  | relRotation => "rel rotation"
  | relTrans => "rel translation"
  | point => "point"
  | intrinsics => "intrinsics"

/-- What a factor expects of one of its parameter blocks. -/
structure Slot where
  role : Role
  dim : Nat
  manifold : Manifold
  deriving DecidableEq, Repr

/-- The blocks do not fit the factor. -/
inductive ShapeError where
  | blockCount (expected got : Nat)
  | blockSize (block expected got : Nat)
  deriving DecidableEq, Repr

def ShapeError.message : ShapeError → String
  | blockCount expected got => s!"expected {expected} parameter blocks, got {got}"
  | blockSize block expected got => s!"parameter block {block} expects {expected} values, got {got}"

namespace Slot

def rotation (role : Role) : Slot := ⟨role, 4, .so3⟩

def vector (role : Role) : Slot := ⟨role, 3, .euclidean⟩

def intrinsics (model : CameraModel) : Slot := ⟨.intrinsics, model.numParams, .euclidean⟩

end Slot

namespace Factor

variable {α β : Type}

/-- The factor with its measurements mapped. -/
def map (f : α → β) : Factor α → Factor β
  | reprojection model uv => reprojection model (uv.map f)
  | fixedPose model pose uv => fixedPose model (pose.map f) (uv.map f)
  | rig model uv => rig model (uv.map f)
  | relativePose x1 x2 => relativePose (x1.map f) (x2.map f)

/-- The length of the residual. -/
def residualDim : Factor α → Nat
  | reprojection .. | fixedPose .. | rig .. => 2
  | relativePose .. => 1

/-- The blocks that the factor reads, in order. -/
def layout : Factor α → List Slot
  | reprojection model _ => [.rotation .rotation, .vector .trans, .vector .point, .intrinsics model]
  | fixedPose model _ _ => [.vector .point, .intrinsics model]
  | rig model _ =>
    [.rotation .rigRotation, .vector .rigTrans, .rotation .relRotation, .vector .relTrans, .vector .point,
      .intrinsics model]
  | relativePose _ _ => [.rotation .rotation, ⟨.trans, 3, .s2⟩]

/-- The lengths of the blocks that `residual` reads, in order. -/
def blockSizes : Factor α → List Nat
  | reprojection model _ => [4, 3, 3, model.numParams]
  | fixedPose model _ _ => [3, model.numParams]
  | rig model _ => [4, 3, 4, 3, 3, model.numParams]
  | relativePose _ _ => [4, 3]

/-- The observed pixel, or the two image points. -/
def observed : Factor α → List (Vec2 α)
  | reprojection _ uv | fixedPose _ _ uv | rig _ uv => [uv]
  | relativePose x1 x2 => [x1, x2]

/-- Compare lengths pairwise, counting blocks from `block`. -/
def checkSizes : (block : Nat) → (expected got : List Nat) → Except ShapeError Unit
  | block, want :: expected, given :: got => do
    require (want = given) (.blockSize block want given)
    checkSizes (block + 1) expected got
  | _, _, _ => .ok ()

/-- Do blocks of these lengths fit the factor? -/
def checkBlocks (f : Factor α) (sizes : List Nat) : Except ShapeError Unit := do
  require (f.blockSizes.length = sizes.length) (.blockCount f.blockSizes.length sizes.length)
  checkSizes 0 f.blockSizes sizes

variable [Scalar α]

/-- The pixel of a point in the camera frame, minus the observed one. The perspective division is unguarded. -/
@[inline] def reprojectionError (lens : Lens α) (p : Vec3 α) (uv : Vec2 α) : Vec2 α := lens.project p.perspective - uv

/-- The squared Sampson error of a correspondence under the essential matrix `[t]× R`: the epipolar form squared, over
the squared lengths of the first two components of both epipolar lines. The denominator is unguarded. -/
@[inline] def sampsonError (rotation : Quat α) (trans : Vec3 α) (x1 x2 : Vec2 α) : α :=
  let essential := (Mat3.skew trans).mul rotation.toMat3
  let line2 := essential.mulVec x1.homogeneous
  let line1 := essential.transpose.mulVec x2.homogeneous
  let form := x2.homogeneous.dot line2
  form * form / (line2.x * line2.x + line2.y * line2.y + line1.x * line1.x + line1.y * line1.y)

/-- The residual at parameter blocks, read by position. -/
@[specialize] def residual (f : Factor α) (blocks : List (List α)) : List α :=
  let block (i : Nat) : List α := blocks.getD i []
  match f with
  | reprojection model uv =>
    let pose : Pose α := ⟨.ofList (block 0), .ofList (block 1)⟩
    (reprojectionError (model.lens (block 3)) (pose.apply (.ofList (block 2))) uv).toList
  | fixedPose model pose uv =>
    (reprojectionError (model.lens (block 1)) (pose.apply (.ofList (block 0))) uv).toList
  | rig model uv =>
    let rigPose : Pose α := ⟨.ofList (block 0), .ofList (block 1)⟩
    let relPose : Pose α := ⟨.ofList (block 2), .ofList (block 3)⟩
    (reprojectionError (model.lens (block 5)) ((relPose.comp rigPose).apply (.ofList (block 4))) uv).toList
  | relativePose x1 x2 => [sampsonError (.ofList (block 0)) (.ofList (block 1)) x1 x2]

/-- The residual at parameter blocks that fit. -/
def evaluate (f : Factor α) (blocks : List (List α)) : Except ShapeError (List α) := do
  f.checkBlocks (blocks.map List.length)
  return f.residual blocks

end Factor

end MultiView
