import MultiView.Problem.Basic
import MultiView.Problem.Values

/-!
# Residuals and cost of a problem

`Problem.evaluate` computes the residual of every block at given values. It needs no validation: it reports the first
block that refers to a missing parameter or value, or whose values do not fit its factor.
-/

namespace MultiView

/-- Why a problem has no residuals at given values. -/
inductive EvaluationError where
  | missingParam (residual id : Nat)
  | noValues (name : String)
  | shape (residual : Nat) (error : ShapeError)
  deriving DecidableEq, Repr

def EvaluationError.message : EvaluationError → String
  | missingParam residual id => s!"residual {residual} references missing param {paramIdText id}"
  | noValues name => s!"no values for parameter {name}"
  | shape residual error => s!"evaluating residual {residual}: {error.message}"

variable {α : Type}

/-- The value of the block of an id, read for the residual block at a position. -/
def Problem.lookup (p : Problem α) (v : Values α) (residual id : Nat) : Except EvaluationError (List α) := do
  let b ← orFail (.missingParam residual id) p.params[id]?
  orFail (.noValues b.name) (v.get? b.name)

variable [Scalar α]

/-- The residual of the block at a position. -/
def Problem.evaluateBlock (p : Problem α) (v : Values α) (position : Nat) (r : ResidualBlock α) :
    Except EvaluationError (List α) := do
  let blocks ← r.params.mapM (p.lookup v position)
  (r.factor.evaluate blocks).mapError (.shape position)

/-- The residuals of all blocks, in order. -/
def Problem.evaluate (p : Problem α) (v : Values α) : Except EvaluationError (List (List α)) :=
  p.residuals.zipIdx.mapM fun (r, i) => p.evaluateBlock v i r

/-- The squared length of a residual. -/
def normSq (r : List α) : α := Scalar.sum (r.map fun x => x * x)

/-- Half the sum of the squared lengths of residuals. -/
def totalCost (residuals : List (List α)) : α := Scalar.half * Scalar.sum (residuals.map normSq)

/-- The cost of a problem at values. -/
def Problem.cost (p : Problem α) (v : Values α) : Except EvaluationError α := totalCost <$> p.evaluate v

/-- The mean length of residuals, zero if there are none. -/
def meanNorm (residuals : List (List α)) : α :=
  if residuals.isEmpty then 0
  else Scalar.sum (residuals.map fun r => Scalar.sqrt (normSq r)) / Scalar.ofNat residuals.length

end MultiView
