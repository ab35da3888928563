import MultiView.Reconstruction.Basic

/-!
# Drafting a problem

A dataset's problem is drafted block by block while its observations are read. A block that several observations need
is added when the first of them asks for it; the others get its id from a table (`Drafting.share`). An index that points
outside of its list ends the draft with an error of its own.
-/

namespace MultiView

/-- A formulation in the making, with the ids of the blocks that may be asked for again. -/
structure Draft (κ α : Type) extends Formulation α where
  shared : Assoc κ Nat

/-- A computation that adds blocks to a draft. -/
abbrev Drafting (κ α : Type) := StateT (Draft κ α) (Except (RefineError α))

def Draft.empty {κ α : Type} : Draft κ α := ⟨⟨.empty, .empty⟩, .empty⟩

/-- The formulation of a draft with a residual block, if it is well formed. -/
def Draft.finish {κ α : Type} [Scalar α] (s : Draft κ α) (asked : Nat) : Except (RefineError α) (Formulation α) := do
  require (s.problem.residuals ≠ []) (.noObservations (leastTrack asked))
  s.problem.validate.mapError .invalid
  return s.toFormulation

namespace Drafting

variable {κ α : Type}

/-- The element at an index. -/
def item {τ : Type} (xs : List τ) (i : Nat) : Drafting κ α τ :=
  StateT.lift (orFail (.outOfRange xs.length i) xs[i]?)

/-- Is the point of an observation seen often enough, by the numbers of observations of all points? -/
def isUsable (asked : Nat) (tracks : List Nat) (o : Observation α) : Drafting κ α Bool := do
  return decide (leastTrack asked ≤ (← item tracks o.point))

/-- Add a residual block that reads the blocks of given ids. -/
def addResidual (factor : Factor α) (ids : List Nat) (loss : RobustLoss α) : Drafting κ α Unit :=
  modify fun s => { s with problem := s.problem.addResidual (.make factor ids loss) }

variable [BlockKey κ]

/-- Add a parameter block and its initial value. The answer is the block's id. -/
def add (k : κ) (spec : BlockSpec α) : Drafting κ α Nat :=
  modifyGet fun s =>
    (s.problem.params.length,
      { s with
        problem := s.problem.addParam (BlockKey.name k) spec.value.length spec.manifold spec.fixed none
        initial := s.initial.insert (BlockKey.name k) spec.value })

/-- Add the two blocks of a pose. -/
def addPose (rotation trans : κ) (constant : Bool) (pose : Pose α) : Drafting κ α (Nat × Nat) := do
  return (← add rotation (.rotation constant pose), ← add trans (.trans constant pose))

variable [DecidableEq κ]

/-- The id of a block that may be asked for again. It is added if it is not there yet. -/
def share (k : κ) (spec : Drafting κ α (BlockSpec α)) : Drafting κ α Nat := do
  match (← get).shared.get? k with
  | some id => return id
  | none =>
    let id ← add k (← spec)
    modify fun s => { s with shared := s.shared.insert k id }
    return id

/-- The id of a point's block, that may be asked for again. -/
def sharePoint (k : κ) (constant : Bool) (points : List (Vec3 α)) (index : Nat) : Drafting κ α Nat :=
  share k do return .point constant (← item points index)

/-- The ids of the two blocks of a pose that may be asked for again. -/
def sharePose (rotation trans : κ) (constant : Bool) (pose : Pose α) : Drafting κ α (Nat × Nat) := do
  return (← share rotation (pure (.rotation constant pose)), ← share trans (pure (.trans constant pose)))

end Drafting

end MultiView
