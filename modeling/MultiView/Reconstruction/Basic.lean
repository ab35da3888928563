import MultiView.Block
import MultiView.Reconstruction.Assembly
import MultiView.Solver.Restart
import MultiView.Synthetic.Scene

/-!
# What reconstruction problems share

Counting observations per point, the choice of intrinsics to refine, blocks of poses and points, and reading solved
blocks back. Something whose blocks took no part in the problem is returned as it was.
-/

namespace MultiView

/-- Which groups of intrinsics are refined. -/
structure Refinement where
  focal : Bool
  principal : Bool
  extra : Bool
  deriving DecidableEq, Repr

namespace Refinement

/-- Everything but the principal point. -/
def default : Refinement := ⟨true, false, true⟩

/-- The positions of a model's parameters that are held constant. -/
def mask (r : Refinement) (model : CameraModel) : FixedMask :=
  .ofList ((if r.focal then [] else model.focalIndices) ++ (if r.principal then [] else model.principalIndices) ++
    if r.extra then [] else model.extraIndices)

end Refinement

/-- The number of observations of each of `n` points. -/
def trackLengths {α : Type} (n : Nat) (observations : List (Observation α)) : List Nat :=
  (List.range n).map fun i => observations.countP fun o => o.point = i

/-- The least number of observations of a point that takes part, if so many are asked for: at least one. -/
def leastTrack (asked : Nat) : Nat := max asked 1

/-- Why a reconstruction is not refined. -/
inductive RefineError (α : Type) where
  | noObservations (minTrack : Nat)
  /-- An index outside of a list, which datasets that were validated do not have. -/
  | outOfRange (length index : Nat)
  | invalid (error : ValidationError α)
  | solve (error : SolveError α)
  | block (error : BlockError α)
  | evaluation (error : EvaluationError)

def RefineError.message {α : Type} [NumberText α] : RefineError α → String
  | noObservations minTrack => s!"no observations left with track length >= {minTrack}"
  | outOfRange length index => s!"index out of bounds: the len is {length} but the index is {index}"
  | invalid error => error.message
  | solve error => error.message
  | block error => error.message
  | evaluation error => error.message

namespace BlockSpec

variable {α : Type}

def mask (constant : Bool) (dim : Nat) : FixedMask := if constant then .all dim else .free

def rotation (constant : Bool) (pose : Pose α) : BlockSpec α := ⟨pose.rot.toList, .so3, mask constant 4⟩

def trans (constant : Bool) (pose : Pose α) : BlockSpec α := ⟨pose.trans.toList, .euclidean, mask constant 3⟩

def point (constant : Bool) (p : Vec3 α) : BlockSpec α := ⟨p.toList, .euclidean, mask constant 3⟩

def camera (refine : Refinement) (c : Camera α) : BlockSpec α := ⟨c.params, .euclidean, refine.mask c.model⟩

end BlockSpec

namespace Values

variable {κ α : Type} [BlockKey κ] [Scalar α]

/-- The value of the block of a key. -/
def block? (v : Values α) (k : κ) : Option (List α) := v.get? (BlockKey.name k)

/-- The pose of two blocks, if both are there. -/
def pose (v : Values α) (rotation trans : κ) (unsolved : Pose α) : Except (RefineError α) (Pose α) :=
  match v.block? rotation, v.block? trans with
  | some q, some t => (Pose.ofBlocks q t).mapError .block
  | _, _ => .ok unsolved

/-- The point of a block, if it is there. -/
def point (v : Values α) (k : κ) (unsolved : Vec3 α) : Except (RefineError α) (Vec3 α) :=
  match v.block? k with
  | some b => (Vec3.ofBlock b).mapError .block
  | none => .ok unsolved

/-- The camera of a block, if it is there. -/
def camera (v : Values α) (k : κ) (unsolved : Camera α) : Except (RefineError α) (Camera α) :=
  match v.block? k with
  | some b => (Camera.ofBlock unsolved.model b).mapError .block
  | none => .ok unsolved

end Values

/-- Read something for each element of a list and its position. -/
def readEach {ε σ τ : Type} (read : Nat → σ → Except ε τ) (xs : List σ) : Except ε (List τ) :=
  xs.zipIdx.mapM fun (x, i) => read i x

/-- The mean length of a problem's residuals at values. -/
def Problem.meanError {α : Type} [Scalar α] (p : Problem α) (v : Values α) : Except (RefineError α) α :=
  (meanNorm <$> p.evaluate v).mapError .evaluation

end MultiView
