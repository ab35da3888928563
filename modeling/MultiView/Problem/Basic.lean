import MultiView.Factor.Basic
import MultiView.Problem.FixedMask

/-!
# Refinement problems

A problem is a list of parameter blocks and a list of residual blocks that refer to them by position. It says what is
measured and what may move, and nothing about how it is solved. Any field may hold anything: `Problem.validate`, in its
own module, says which problems are well formed.
-/

namespace MultiView

/-- An interval for one entry of a parameter block. -/
structure Bound (α : Type) where
  index : Nat
  lower : α
  upper : α

/-- How large residuals are discounted; one residual block at a time. -/
inductive RobustLoss (α : Type) where
  | none
  | huber (scale : α)
  | cauchy (scale : α)
  | arctan (scale : α)

/-- The name and the scale of a loss that has one. -/
def RobustLoss.scale? {α : Type} : RobustLoss α → Option (String × α)
  | none => Option.none
  | huber scale => some ("huber", scale)
  | cauchy scale => some ("cauchy", scale)
  | arctan scale => some ("arctan", scale)

/-- One unknown: a point of a manifold, stored as `dim` numbers under a name. -/
structure ParamBlock (α : Type) where
  id : Nat
  name : String
  dim : Nat
  manifold : Manifold
  fixed : FixedMask
  bounds : Option (List (Bound α))

/-- One measurement: a factor and the ids of the blocks that it reads, in the order of its layout. -/
structure ResidualBlock (α : Type) where
  params : List Nat
  loss : RobustLoss α
  factor : Factor α
  dim : Nat

/-- A residual block of the length that its factor says. -/
def ResidualBlock.make {α : Type} (factor : Factor α) (params : List Nat) (loss : RobustLoss α) : ResidualBlock α :=
  ⟨params, loss, factor, factor.residualDim⟩

/-- The text of a parameter id. -/
def paramIdText (id : Nat) : String := s!"ParamId({id})"

structure Problem (α : Type) where
  params : List (ParamBlock α)
  residuals : List (ResidualBlock α)

namespace Problem

variable {α : Type}

def empty : Problem α := ⟨[], []⟩

/-- The problem with one more parameter block, whose id is its position. -/
def addParam (p : Problem α) (name : String) (dim : Nat) (manifold : Manifold) (fixed : FixedMask)
    (bounds : Option (List (Bound α))) : Problem α :=
  { p with params := p.params ++ [⟨p.params.length, name, dim, manifold, fixed, bounds⟩] }

/-- The problem with one more residual block. -/
def addResidual (p : Problem α) (r : ResidualBlock α) : Problem α := { p with residuals := p.residuals ++ [r] }

/-- The id of the first block of a name. -/
def paramByName? (p : Problem α) (name : String) : Option Nat := (p.params.find? (·.name == name)).map (·.id)

end Problem

end MultiView
