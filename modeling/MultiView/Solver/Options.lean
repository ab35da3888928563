import MultiView.Scalar

/-!
# Options of a solve

`SolveOptions` is what a configuration says; thresholds and the linear solver may be left open there. `Stopping` is
what an optimizer is given: everything decided.
-/

namespace MultiView

/-- How the linear system of a step is solved. -/
inductive LinearSolver where
  | sparseCholesky
  | sparseQR
  deriving DecidableEq, Repr

structure SolveOptions (α : Type) where
  /-- The most iterations of one optimizer run. -/
  maxIters : Nat
  verbosity : Nat
  linearSolver : Option LinearSolver
  /-- A decrease of the error below this ends a run. -/
  minAbsDecrease : Option α
  /-- A relative decrease of the error below this ends a run. -/
  minRelDecrease : Option α
  /-- An error below this ends a run. -/
  minError : Option α

/-- When an optimizer run ends, and how it solves its linear systems. -/
structure Stopping (α : Type) where
  maxIters : Nat
  linearSolver : LinearSolver
  minAbsDecrease : α
  minRelDecrease : α
  minError : α

variable {α : Type} [Scalar α]

/-- What is decided where options say nothing. -/
def Stopping.default : Stopping α :=
  ⟨100, .sparseCholesky, Scalar.decimal 1 5, Scalar.decimal 1 5, Scalar.decimal 1 10⟩

def SolveOptions.default : SolveOptions α :=
  ⟨100, 0, some .sparseCholesky, some (Scalar.decimal 1 5), some (Scalar.decimal 1 5), some (Scalar.decimal 1 10)⟩

/-- The options with what they leave open decided. -/
def SolveOptions.stopping (o : SolveOptions α) : Stopping α where
  maxIters := o.maxIters
  linearSolver := o.linearSolver.getD .sparseCholesky
  minAbsDecrease := o.minAbsDecrease.getD Stopping.default.minAbsDecrease
  minRelDecrease := o.minRelDecrease.getD Stopping.default.minRelDecrease
  minError := o.minError.getD Stopping.default.minError

end MultiView
