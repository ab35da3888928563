import MultiView.Solver.Compiled
import MultiView.Solver.Options

/-!
# Solving by restarts

`solve` runs an optimizer again and again, at most sixteen times. A run that changes nothing is followed by one from
the same values with a smaller trust region; a run that changes something, by one from the new values, until the cost
is small, no longer a number, or hardly falls. The optimizer is an argument: whatever it returns, costs are computed
here, from the residuals without loss.
-/

namespace MultiView

/-- Why an optimizer has no answer. -/
inductive OptimizerError where
  /-- No term reads the unknown of this name. -/
  | unread (name : String)
  | noConvergence
  deriving DecidableEq, Repr

def OptimizerError.message : OptimizerError → String
  | unread name => s!"no residual depends on parameter {name}"
  | noConvergence => "tiny-solver failed to converge"

/-- An optimizer: from a compiled problem, start values, a trust region radius and stopping rules, new values of some
unknowns. -/
abbrev Optimizer (α : Type) := Compiled α → Values α → α → Stopping α → Except OptimizerError (Values α)

structure Solution (α : Type) where
  params : Values α
  initialCost : α
  finalCost : α
  /-- The number of optimizer runs. -/
  runs : Nat
  /-- Some run was needed, and none changed anything. -/
  stalled : Bool

inductive SolveError (α : Type) where
  | compile (error : CompileError α)
  | evaluation (error : EvaluationError)
  | optimizer (error : OptimizerError)

def SolveError.message {α : Type} [NumberText α] : SolveError α → String
  | compile error => error.message
  | evaluation error => error.message
  | optimizer error => error.message

namespace Restart

/-- Where the runs of a solve stand. -/
structure Progress (α : Type) where
  params : Values α
  cost : α
  /-- The trust region radius of the next run. -/
  radius : α
  /-- Has some run changed something? -/
  moved : Bool
  runs : Nat

/-- The most runs of one solve. -/
def maxRuns : Nat := 16

variable {α : Type} [Scalar α]

/-- The trust region radius of the first run. -/
def initialRadius : α := Scalar.decimal 10000 0

/-- A run that changes nothing at this radius or below is the last. -/
def minRadius : α := Scalar.decimal 1 6

/-- The factor on the radius after a run that changed nothing. -/
def shrink : α := Scalar.decimal 1 2

/-- Does an optimizer's answer differ from the current values? A name that has no current value differs. -/
def differs (params solved : Values α) : Bool := solved.entries.any fun e => !(params.get? e.1 == some e.2)

/-- Is the fall of the cost from `before` to `after` too small to go on, or the new cost not finite? -/
def settled (minRelDecrease before after : α) : Bool :=
  !Scalar.isFinite after || decide (Scalar.abs (before - after) ≤ minRelDecrease * Scalar.abs after)

/-- Where the runs stand after an optimizer's answer to the question from `s`, and whether another run may follow. -/
def advance (p : Problem α) (minRelDecrease : α) (s : Progress α) (solved : Values α) :
    Except (SolveError α) (Progress α × Bool) :=
  if differs s.params solved then do
    let params := s.params.merge solved
    let cost ← (p.cost params).mapError .evaluation
    return (⟨params, cost, s.radius, true, s.runs + 1⟩, !settled minRelDecrease s.cost cost)
  else if s.radius ≤ minRadius then return ({ s with runs := s.runs + 1 }, false)
  else return ({ s with radius := s.radius * shrink, runs := s.runs + 1 }, true)

/-- At most `fuel` more runs. The optimizer is asked from within a monad, in which its calls can be observed. -/
def loop {m : Type → Type} [Monad m] (p : Problem α) (ask : Values α → α → m (Except OptimizerError (Values α)))
    (stopping : Stopping α) : (fuel : Nat) → Progress α → m (Except (SolveError α) (Progress α))
  | 0, s => return .ok s
  | fuel + 1, s =>
    if stopping.minError < s.cost then do
      match ← ask s.params s.radius with
      | .error e => return .error (.optimizer e)
      | .ok solved =>
        match advance p stopping.minRelDecrease s solved with
        | .error e => return .error e
        | .ok (s, true) => loop p ask stopping fuel s
        | .ok (s, false) => return .ok s
    else return .ok s

/-- Nothing was run yet. -/
def start (params : Values α) (cost : α) : Progress α := ⟨params, cost, initialRadius, false, 0⟩

/-- The solution that runs from a given cost end with. -/
def solution (minError initialCost : α) (s : Progress α) : Solution α :=
  ⟨s.params, initialCost, s.cost, s.runs, !s.moved && decide (minError < initialCost)⟩

end Restart

variable {α : Type} [Scalar α]

/-- Refine the initial values of a problem, with an optimizer that is asked from within a monad. -/
def Problem.solveIn {m : Type → Type} [Monad m] (p : Problem α)
    (optimizer : Compiled α → Values α → α → Stopping α → m (Except OptimizerError (Values α))) (initial : Values α)
    (options : SolveOptions α) : m (Except (SolveError α) (Solution α)) := do
  let stopping := options.stopping
  match (p.compile initial).mapError SolveError.compile with
  | .error e => return .error e
  | .ok (compiled, params) =>
    match (p.cost params).mapError SolveError.evaluation with
    | .error e => return .error e
    | .ok cost =>
      let ask params radius := optimizer compiled params radius stopping
      let final ← Restart.loop p ask stopping Restart.maxRuns (Restart.start params cost)
      return final.map (Restart.solution stopping.minError cost)

/-- Refine the initial values of a problem. -/
def Problem.solve (p : Problem α) (optimizer : Optimizer α) (initial : Values α) (options : SolveOptions α) :
    Except (SolveError α) (Solution α) :=
  Id.run (p.solveIn (fun compiled params radius stopping => pure (optimizer compiled params radius stopping)) initial
    options)

end MultiView
