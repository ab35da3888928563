import MultiView.Factor.Basic
import MultiView.Scalar.Dual

/-!
# Jacobians of factors

The derivative of a residual by one scalar of one block is the dual part of the residual at blocks in which that
scalar, and no other, is given derivative one.
-/

namespace MultiView

variable {α : Type} [Scalar α]

/-- The blocks as duals, with derivative one at scalar `col` of block `block` and zero elsewhere. -/
def seedBlocks (blocks : List (List α)) (block col : Nat) : List (List (Dual α)) :=
  blocks.mapIdx fun b values => values.mapIdx fun i v => ⟨v, if b = block ∧ i = col then 1 else 0⟩

/-- A residual and its Jacobian: one matrix, by rows, for each parameter block. -/
structure Linearization (α : Type) where
  residual : List α
  jacobians : List (List (List α))

namespace Factor

/-- The derivative of the residual by one scalar. -/
def jacobianColumn (f : Factor α) (blocks : List (List α)) (block col : Nat) : List α :=
  ((f.map Dual.lift).residual (seedBlocks blocks block col)).map Dual.eps

/-- The Jacobian by the scalars of one block, a row for each component of the residual. -/
def jacobian (f : Factor α) (blocks : List (List α)) (block size : Nat) : List (List α) :=
  let columns := (List.range size).map (f.jacobianColumn blocks block)
  (List.range f.residualDim).map fun row => columns.map fun column => column.getD row 0

/-- The residual at parameter blocks that fit, with its Jacobian by each of them. -/
def linearize (f : Factor α) (blocks : List (List α)) : Except ShapeError (Linearization α) := do
  f.checkBlocks (blocks.map List.length)
  return ⟨f.residual blocks, blocks.mapIdx fun i values => f.jacobian blocks i values.length⟩

end Factor

end MultiView
