import MultiView.Problem.Evaluation
import MultiView.Problem.Validation

/-!
# Problems compiled for an optimizer

A compiled problem is a problem in an optimizer's terms: unknowns with their manifold, the positions that stay put and
one interval for each bounded position; and terms that name their unknowns. `Problem.compile` accepts a validated
problem whose blocks all have an initial value of their length, whose curved blocks are either free or fully fixed,
and whose losses have positive finite scales.
-/

namespace MultiView

/-- The interval that a position of an unknown is kept in. -/
structure Interval (α : Type) where
  lower : α
  upper : α

/-- One interval for each bounded position. -/
abbrev Intervals (α : Type) := Assoc Nat (Interval α)

/-- The intervals of a list of bounds, registered in order: the last bound on a position counts. -/
def Intervals.ofBounds {α : Type} (bounds : List (Bound α)) : Intervals α :=
  Assoc.ofList (bounds.map fun b => (b.index, ⟨b.lower, b.upper⟩))

/-- An unknown of a compiled problem. -/
structure Unknown (α : Type) where
  name : String
  /-- The curved manifold that steps follow, if any. -/
  manifold : Option Manifold
  fixed : FixedMask
  intervals : Intervals α

/-- A residual of a compiled problem. -/
structure Term (α : Type) where
  dim : Nat
  unknowns : List String
  factor : Factor α
  loss : RobustLoss α

structure Compiled (α : Type) where
  unknowns : List (Unknown α)
  terms : List (Term α)

/-- Why a problem is not compiled. -/
inductive CompileError (α : Type) where
  | invalid (error : ValidationError α)
  | noInitial (name : String) (id : Nat)
  | initialDim (name : String) (expected got : Nat)
  | partlyFixed (manifold : Manifold) (name : String)
  | bounded (manifold : Manifold) (name : String)
  | lossScale (residual : Nat) (loss : String) (scale : α)
  | shape (residual : Nat) (error : ShapeError)

def CompileError.message {α : Type} [NumberText α] : CompileError α → String
  | invalid error => error.message
  | noInitial name id => s!"initial values missing parameter {name} (id {paramIdText id})"
  | initialDim name expected got => s!"initial dimension mismatch for {name}: expected {expected}, got {got}"
  | partlyFixed manifold name => s!"tiny-solver cannot partially fix {manifold.name} manifold {name}"
  | bounded manifold name => s!"bounds are not supported on {manifold.name} manifold {name}"
  | lossScale residual loss scale =>
    s!"residual {residual}: {loss} loss scale must be positive and finite, got " ++ NumberText.plain scale
  | shape residual error => s!"residual {residual}: {error.message}"

variable {α : Type} [Scalar α]

/-- The manifold that steps of a block follow. A block that never moves needs none. -/
def ParamBlock.stepManifold (b : ParamBlock α) : Except (CompileError α) (Option Manifold) :=
  if b.manifold = .euclidean ∨ b.fixed.isAllFixed b.dim then .ok none
  else do
    require b.fixed.isEmpty (.partlyFixed b.manifold b.name)
    require b.bounds.isNone (.bounded b.manifold b.name)
    return some b.manifold

/-- The unknown of a block, and its initial value. -/
def ParamBlock.compile (b : ParamBlock α) (initial : Values α) :
    Except (CompileError α) (Unknown α × String × List α) := do
  let value ← orFail (.noInitial b.name b.id) (initial.get? b.name)
  require (value.length = b.dim) (.initialDim b.name b.dim value.length)
  let manifold ← b.stepManifold
  return (⟨b.name, manifold, b.fixed, Intervals.ofBounds (b.bounds.getD [])⟩, b.name, value)

/-- Has the loss a positive finite scale, if it has one? -/
def RobustLoss.check (loss : RobustLoss α) (residual : Nat) : Except (CompileError α) Unit :=
  match loss.scale? with
  | some (name, scale) => require (Scalar.isPositive scale) (.lossScale residual name scale)
  | Option.none => .ok ()

/-- The term of the residual block at a position. -/
def ResidualBlock.compile (r : ResidualBlock α) (params : List (ParamBlock α)) (position : Nat) :
    Except (CompileError α) (Term α) := do
  r.loss.check position
  let blocks := r.params.filterMap (params[·]?)
  (r.factor.checkBlocks (blocks.map (·.dim))).mapError (.shape position)
  return ⟨r.dim, blocks.map (·.name), r.factor, r.loss⟩

/-- The compiled problem, and the initial values of its unknowns. -/
def Problem.compile (p : Problem α) (initial : Values α) : Except (CompileError α) (Compiled α × Values α) := do
  p.validate.mapError .invalid
  let unknowns ← p.params.mapM (·.compile initial)
  let terms ← p.residuals.zipIdx.mapM fun (r, i) => r.compile p.params i
  return (⟨unknowns.map (·.1), terms⟩, Assoc.ofList (unknowns.map (·.2)))

end MultiView
