import MultiView.Camera.Basic
import MultiView.Geometry.Pose

/-!
# Parameter blocks

Poses, points and cameras as the lists of numbers that an optimizer works on. A pose is two blocks, a rotation
`[x, y, z, w]` and a vector, so that each can have its own manifold. Reading a block back checks its length;
a rotation has to be finite and nonzero and is scaled to unit length, and a camera is validated.
-/

namespace MultiView

/-- A block does not hold what it should. -/
inductive BlockError (α : Type) where
  | rotationLength (got : Nat)
  | transLength (got : Nat)
  | notARotation (values : List α)
  | vectorLength (got : Nat)
  | camera (error : CameraError α)

def BlockError.message {α : Type} [NumberText α] : BlockError α → String
  | rotationLength got => s!"rotation block must have 4 entries, got {got}"
  | transLength got => s!"translation block must have 3 entries, got {got}"
  | notARotation values => "rotation block is not a valid quaternion: " ++ NumberText.list values
  | vectorLength got => s!"expected a 3-vector block, got {got} entries"
  | camera error => error.message

variable {α : Type} [Scalar α]

/-- Has a quaternion finite components and a positive length? -/
def Quat.isDirection (q : Quat α) : Bool := decide (0 < q.norm) && q.toList.all Scalar.isFinite

/-- The unit quaternion of a rotation block. -/
def Quat.ofBlock (block : List α) : Except (BlockError α) (Quat α) := do
  require (block.length = 4) (.rotationLength block.length)
  let q := Quat.ofList block
  require q.isDirection (.notARotation block)
  return q.normalize

/-- The vector of a block. -/
def Vec3.ofBlock (block : List α) : Except (BlockError α) (Vec3 α) := do
  require (block.length = 3) (.vectorLength block.length)
  return Vec3.ofList block

/-- The pose of a rotation block and a vector block. Both lengths are checked before the rotation is read. -/
def Pose.ofBlocks (rotation trans : List α) : Except (BlockError α) (Pose α) := do
  require (rotation.length = 4) (.rotationLength rotation.length)
  require (trans.length = 3) (.transLength trans.length)
  let q := Quat.ofList rotation
  require q.isDirection (.notARotation rotation)
  return Pose.normalize ⟨q, Vec3.ofList trans⟩

/-- The rotation block and the vector block of a pose. -/
def Pose.toBlocks (p : Pose α) : List α × List α := (p.rot.toList, p.trans.toList)

/-- The pose of two lists of exactly four and three numbers, with its rotation scaled to unit length. -/
def Pose.ofLists? (rotation trans : List α) : Option (Pose α) :=
  if rotation.length = 4 ∧ trans.length = 3 then
    some (Pose.normalize ⟨Quat.ofList rotation, Vec3.ofList trans⟩)
  else none

/-- The camera of a model and an intrinsics block. -/
def Camera.ofBlock (model : CameraModel) (block : List α) : Except (BlockError α) (Camera α) :=
  (Camera.make model block).mapError .camera

end MultiView
