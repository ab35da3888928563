import MultiView.Problem.Basic
import MultiView.Problem.Values

/-!
# Assembling a problem from measurements

A reconstruction problem is given by keys and measurements (`Measurement.assemble`): each key is a parameter block,
whose id is the key's position, and each measurement is a residual block that reads the blocks of its keys.
-/

namespace MultiView

/-- Keys of parameter blocks, with the names that the blocks get. -/
class BlockKey (κ : Type) where
  name : κ → String

/-- The contents of a parameter block: its value, and what of it may move. -/
structure BlockSpec (α : Type) where
  value : List α
  manifold : Manifold
  fixed : FixedMask

/-- A factor with the keys of the blocks that it reads, in the order of its layout. -/
structure Measurement (κ α : Type) where
  factor : Factor α
  reads : List κ

/-- A problem with initial values. -/
structure Formulation (α : Type) where
  problem : Problem α
  initial : Values α

namespace Measurement

variable {κ α : Type} [DecidableEq κ]

/-- The residual block of a measurement; the ids of blocks are the positions of their keys. -/
def block (loss : RobustLoss α) (ks : List κ) (m : Measurement κ α) : ResidualBlock α :=
  .make m.factor (m.reads.map ks.idxOf) loss

variable [BlockKey κ]

/-- The parameter block of a key at a position. -/
def paramBlock (spec : κ → BlockSpec α) (k : κ) (position : Nat) : ParamBlock α :=
  ⟨position, BlockKey.name k, (spec k).value.length, (spec k).manifold, (spec k).fixed, none⟩

/-- The problem of keys and measurements, and the initial values of its blocks. -/
def assemble (spec : κ → BlockSpec α) (loss : RobustLoss α) (ks : List κ) (ms : List (Measurement κ α)) :
    Formulation α where
  problem :=
    { params := ks.zipIdx.map fun (k, i) => paramBlock spec k i
      residuals := ms.map (block loss ks) }
  initial := ⟨ks.map fun k => (BlockKey.name k, (spec k).value)⟩

end Measurement

end MultiView
