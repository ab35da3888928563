import MultiView.Decimal.NumberText
import MultiView.Problem.Basic

/-!
# Well-formed problems

`Problem.validate` does its checks in a fixed order and reports the first that fails: the parameter blocks in order,
each with its id, name, length, fixed positions and bounds; then the residual blocks in order, each with its length,
the number of its parameters, and each parameter against its slot.
-/

namespace MultiView

/-- What is wrong with a problem. -/
inductive ValidationError (α : Type) where
  | idMismatch (position id : Nat)
  | duplicateName (name : String)
  | dimension (name : String) (manifold : Manifold) (dim : Nat)
  | fixedIndex (name : String) (index : Nat)
  | boundIndex (name : String) (index : Nat)
  | emptyBound (name : String) (lower upper : α)
  | residualDim (residual dim expected : Nat)
  | paramCount (residual expected got : Nat)
  | missingParam (residual id : Nat)
  | slotMismatch (residual : Nat) (slot : Slot) (name : String) (dim : Nat) (manifold : Manifold)

def ValidationError.message {α : Type} [NumberText α] : ValidationError α → String
  | idMismatch position id => s!"param id mismatch: expected {position}, got {paramIdText id}"
  | duplicateName name => s!"duplicate param name {name}"
  | dimension name manifold dim => s!"param {name} manifold {manifold.name} incompatible with dim {dim}"
  | fixedIndex name index => s!"param {name} fixed index {index} out of range"
  | boundIndex name index => s!"param {name} bound index {index} out of range"
  | emptyBound name lower upper =>
    s!"param {name} bound lower {NumberText.plain lower} > upper {NumberText.plain upper}"
  | residualDim residual dim expected =>
    s!"residual {residual} dim {dim} does not match factor expectation {expected}"
  | paramCount residual expected got => s!"residual {residual} requires {expected} params, got {got}"
  | missingParam residual id => s!"residual {residual} references missing param {paramIdText id}"
  | slotMismatch residual slot name dim manifold =>
    s!"residual {residual} expects {slot.dim}D {slot.manifold.name} {slot.role.name}, got {name} with dim={dim} " ++
      s!"manifold={manifold.name}"

variable {α : Type} [Scalar α]

/-- Is the bound for an entry of the block, and does its interval hold a number? -/
def ParamBlock.checkBound (b : ParamBlock α) (bound : Bound α) : Except (ValidationError α) Unit := do
  require (bound.index < b.dim) (.boundIndex b.name bound.index)
  require (bound.lower ≤ bound.upper) (.emptyBound b.name bound.lower bound.upper)

/-- The checks of a block at a position, after blocks of the names `taken`. -/
def ParamBlock.check (b : ParamBlock α) (position : Nat) (taken : List String) : Except (ValidationError α) Unit := do
  require (b.id = position) (.idMismatch position b.id)
  require (b.name ∉ taken) (.duplicateName b.name)
  require (b.manifold.admits b.dim) (.dimension b.name b.manifold b.dim)
  b.fixed.indices.forM fun i => require (i < b.dim) (.fixedIndex b.name i)
  (b.bounds.getD []).forM b.checkBound

/-- Is the block of an id there, and is it what the slot expects? -/
def ParamBlock.checkSlot (params : List (ParamBlock α)) (residual id : Nat) (slot : Slot) :
    Except (ValidationError α) Unit := do
  let b ← orFail (.missingParam residual id) params[id]?
  require (b.dim = slot.dim ∧ b.manifold = slot.manifold) (.slotMismatch residual slot b.name b.dim b.manifold)

/-- The checks of the residual block at a position. -/
def ResidualBlock.check (r : ResidualBlock α) (params : List (ParamBlock α)) (position : Nat) :
    Except (ValidationError α) Unit := do
  require (r.dim = r.factor.residualDim) (.residualDim position r.dim r.factor.residualDim)
  require (r.params.length = r.factor.layout.length) (.paramCount position r.factor.layout.length r.params.length)
  (r.params.zip r.factor.layout).forM fun (id, slot) => ParamBlock.checkSlot params position id slot

/-- Do all blocks fit together? -/
def Problem.validate (p : Problem α) : Except (ValidationError α) Unit := do
  checkEach (fun i b => b.check i ((p.params.take i).map (·.name))) 0 p.params
  checkEach (fun i r => r.check p.params i) 0 p.residuals

end MultiView
