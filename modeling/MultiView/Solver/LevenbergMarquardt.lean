import MultiView.Factor.Jacobian
import MultiView.Manifold.Rotation
import MultiView.Manifold.Sphere
import MultiView.Solver.LinearSystem
import MultiView.Solver.Restart

/-!
# Levenberg–Marquardt

Damped Gauss–Newton steps for compiled problems. A step stacks steps in the tangent spaces of all unknowns, in order; a
position that is held constant keeps its column, and is put back after the step. Residuals and Jacobians of a term with
a loss are multiplied by the square root of the loss's derivative.

A run scales the columns once, at its first point; solves for a step; accepts it if the error falls, shrinking the
damping by how well the linear model did, and else doubles the damping. It ends when the error is small or hardly
changes; after a refused step it does not change at all.
-/

namespace MultiView

/-- The number nearest to `x` in the interval; the lower end if `x` is a NaN. -/
def Interval.clamp {α : Type} [Scalar α] (s : Interval α) (x : α) : α :=
  let raised := if s.lower ≤ x then x else s.lower
  if raised ≤ s.upper then raised else s.upper

namespace LevenbergMarquardt

variable {α : Type} [Scalar α]

/-! ## Unknowns and steps -/

/-- The number of coordinates of a step of an unknown. -/
def stepDim (manifold : Option Manifold) (value : List α) : Nat :=
  match manifold with
  | some .so3 => 3
  | some .s2 => 2
  | _ => value.length

/-- The value after a step. -/
@[specialize] def plus (manifold : Option Manifold) (value step : List α) : List α :=
  match manifold with
  | some .so3 => (RotationStep.plus (.ofList value) (.ofList step)).toList
  | some .s2 => (Sphere.plus (.ofList value) (.ofList step)).toList
  | _ => List.zipWith (· + ·) value step

/-- A new value with bounded positions clamped and fixed ones put back. -/
def settle (v : Unknown α) (old new : List α) : List α :=
  new.mapIdx fun i x =>
    if v.fixed.isFixed i then old.getD i x
    else match v.intervals.get? i with
      | some s => s.clamp x
      | none => x

/-- An unknown with the column of its first step coordinate. -/
structure Placed (α : Type) where
  subject : Unknown α
  offset : Nat

/-- A term with the positions of its unknowns. -/
structure Indexed (α : Type) where
  term : Term α
  reads : List Nat

/-- The values of all unknowns. -/
abbrev Point (α : Type) := Array (List α)

/-- The columns at which the unknowns begin, and the number of columns. -/
def place (x : Point α) : List (Unknown α) → (index offset : Nat) → List (Placed α) × Nat
  | [], _, offset => ([], offset)
  | v :: vs, index, offset =>
    let (placed, total) := place x vs (index + 1) (offset + stepDim v.manifold (x.getD index []))
    (⟨v, offset⟩ :: placed, total)

/-! ## Losses -/

/-- The first and the second derivative of a loss at a squared length `s`. -/
@[inline] def lossDerivatives (loss : RobustLoss α) (s : α) : α × α :=
  match loss with
  | .none => (1, 0)
  | .huber a =>
    if a * a < s then
      let first := a / Scalar.sqrt s
      (first, -first / (Scalar.two * s))
    else (1, 0)
  | .cauchy a =>
    let c := 1 / (a * a)
    let first := 1 / (1 + s * c)
    (first, -c * (first * first))
  | .arctan a =>
    let c := 1 / (a * a)
    let first := 1 / (1 + s * s * c)
    (first, -Scalar.two * s * c * (first * first))

/-- The factor on a residual of squared length `s`: the square root of the derivative of the loss. All losses are
concave; so where the second derivative is not at most zero it is not a number, and neither is the factor. -/
@[inline] def lossWeight (loss : RobustLoss α) (s : α) : α :=
  let (first, second) := lossDerivatives loss s
  if s == 0 ∨ second ≤ 0 then Scalar.sqrt first else second

/-- The factor on a residual under a loss. -/
@[specialize] def weight (loss : RobustLoss α) (r : List α) : α :=
  match loss with
  | .none => 1
  | loss => lossWeight loss (normSq r)

/-- A list times a factor. -/
@[specialize] def scaleBy (w : α) (r : List α) : List α := r.map (· * w)

/-- The values that a term reads. -/
def Indexed.blocks (t : Indexed α) (x : Point α) : List (List α) := t.reads.map fun i => x.getD i []

/-- The weighted residual of a term. -/
@[specialize] def Indexed.residual (t : Indexed α) (x : Point α) : List α :=
  let r := t.term.factor.residual (t.blocks x)
  scaleBy (weight t.term.loss r) r

/-- The sum of the squared weighted residuals. -/
@[specialize] def error (terms : List (Indexed α)) (x : Point α) : α :=
  Scalar.sum (terms.map fun t => normSq (t.residual x))

/-! ## Linearization -/

/-- A term near a point: its weighted residual, and the derivative of that along each step coordinate of the unknowns
that it reads, with the coordinate's column. -/
structure LinearTerm (α : Type) where
  residual : List α
  columns : List (Nat × List α)

/-- A value after no step, with derivative one along a coordinate of the step if one is given. -/
@[specialize] def dualValue (manifold : Option Manifold) (value : List α) (coordinate : Option Nat) : List (Dual α) :=
  let step : List (Dual α) :=
    (List.range (stepDim manifold value)).map fun k => ⟨0, if coordinate = some k then 1 else 0⟩
  plus manifold (value.map Dual.lift) step

/-- The linearization of a term. An unknown that the term reads twice moves in both places. -/
@[specialize] def linearize (placed : Array (Placed α)) (x : Point α) (t : Indexed α) : LinearTerm α :=
  let factor := t.term.factor.map Dual.lift
  let value (i : Nat) (coordinate : Option Nat) : List (Dual α) :=
    dualValue (placed[i]?.bind (·.subject.manifold)) (x.getD i []) coordinate
  let still := t.reads.map fun i => value i none
  let r := (factor.residual still).map Dual.re
  let w := weight t.term.loss r
  let column (i k : Nat) : List α :=
    let moved := value i (some k)
    let blocks := List.zipWith (fun j block => if j = i then moved else block) t.reads still
    scaleBy w ((factor.residual blocks).map Dual.eps)
  let ofUnknown (i : Nat) : List (Nat × List α) :=
    match placed[i]? with
    | none => []
    | some p => (List.range (stepDim p.subject.manifold (x.getD i []))).map fun k => (p.offset + k, column i k)
  ⟨scaleBy w r, t.reads.eraseDups.flatMap ofUnknown⟩

/-- The factors on `n` columns: one over one more than their length. -/
@[specialize] def columnScaling (n : Nat) (terms : List (LinearTerm α)) : Array α :=
  let squares : Array α := terms.foldl (fun squares t =>
    t.columns.foldl (fun squares (i, a) => squares.modify i (· + normSq a)) squares) (Array.replicate n 0)
  squares.map fun s => 1 / (1 + Scalar.sqrt s)

/-- A term with its columns multiplied by factors. -/
@[specialize] def LinearTerm.scale (c : Array α) (t : LinearTerm α) : LinearTerm α :=
  ⟨t.residual, t.columns.map fun (i, a) => (i, scaleBy (c.getD i 0) a)⟩

/-! ## Normal equations -/

/-- The matrix `JᵀJ`, the vector `-Jᵀr` and the sum `rᵀr`. -/
structure Normal (α : Type) where
  matrix : SquareMatrix α
  gradient : Array α
  error : α

@[specialize] def dot (a b : List α) : α := Scalar.sum (List.zipWith (· * ·) a b)

/-- Add a term to the normal equations. -/
@[specialize] def Normal.addTerm (s : Normal α) (t : LinearTerm α) : Normal α where
  matrix := t.columns.foldl (fun m (i, a) => m.modify i fun row =>
    t.columns.foldl (fun row (j, b) => row.modify j (· + dot a b)) row) s.matrix
  gradient := t.columns.foldl (fun g (i, a) => g.modify i (· - dot a t.residual)) s.gradient
  error := s.error + normSq t.residual

/-- The normal equations of terms with `n` columns. -/
@[specialize] def normalEquations (n : Nat) (terms : List (LinearTerm α)) : Normal α :=
  terms.foldl Normal.addTerm ⟨Array.replicate n (Array.replicate n 0), Array.replicate n 0, 0⟩

/-- The matrix with `damping` times its diagonal added to it, the diagonal being kept between `1e-6` and `1e32`. -/
@[specialize] def damped (damping : α) (m : SquareMatrix α) : SquareMatrix α :=
  let range : Interval α := ⟨Scalar.decimal 1 6, Scalar.decimal (Nat.pow 10 32) 0⟩
  m.mapIdx fun i row => row.modify i fun a => a + damping * range.clamp a

/-- How much the linear model says that the error falls along a step. -/
@[specialize] def predictedFall (s : Normal α) (step : List α) : α :=
  let p := step.toArray
  Scalar.sum (step.mapIdx fun i x =>
    x * (Scalar.two * s.gradient.getD i 0 - SquareMatrix.dotUpTo (s.matrix.getD i #[]) p p.size))

/-! ## Iterations -/

/-- The point after a step in all unknowns. -/
def move (placed : Array (Placed α)) (x : Point α) (step : List α) : Point α :=
  x.mapIdx fun i value =>
    match placed[i]? with
    | none => value
    | some p =>
      let part := (step.drop p.offset).take (stepDim p.subject.manifold value)
      settle p.subject value (plus p.subject.manifold value part)

/-- The damping after a step whose fall of the error was `rho` times the predicted one. -/
def nextDamping (damping rho : α) : α :=
  let t := Scalar.two * rho - 1
  let least := 1 / Scalar.ofNat 3
  let drop := 1 - t * t * t
  damping * (if least < drop then drop else least)

/-- The step of damped normal equations. Cholesky factorization fails on a matrix that is not positive definite. The
orthogonal one never fails, and gives the solution with its sign turned. -/
@[specialize] def solveStep (solver : LinearSolver) (matrix : SquareMatrix α) (gradient : Array α) : Option (List α) :=
  let l := matrix.cholesky
  match solver with
  | .sparseCholesky => if l.hasPositivePivots then some (l.solve gradient) else none
  | .sparseQR => some ((l.solve gradient).map (- ·))

/-- At most `fuel` iterations from a point with its error. The column scaling is fixed by the first one. -/
@[specialize] def iterate (placed : Array (Placed α)) (n : Nat) (terms : List (Indexed α)) (stopping : Stopping α) :
    (fuel : Nat) → (scaling : Option (Array α)) → (x : Point α) → (err damping : α) → Option (Point α)
  | 0, _, x, _, _ => some x
  | fuel + 1, scaling, x, last, damping =>
    let linear := terms.map (linearize placed x)
    let c := scaling.getD (columnScaling n linear)
    let s := normalEquations n (linear.map (·.scale c))
    match solveStep stopping.linearSolver (damped damping s.matrix) s.gradient with
    | none => none
    | some step =>
      let candidate := move placed x (step.mapIdx fun i d => c.getD i 0 * d)
      let candidateError := error terms candidate
      let rho := (s.error - candidateError) / predictedFall s step
      let accepted := decide (0 < rho)
      let x := if accepted then candidate else x
      let err := if accepted then candidateError else last
      let damping := if accepted then nextDamping damping rho else damping * Scalar.two
      let change := Scalar.abs (last - err)
      if err < stopping.minError then some x
      else if !(err == err) then none
      else if change < stopping.minAbsDecrease ∨ change / last < stopping.minRelDecrease then some x
      else iterate placed n terms stopping fuel (some c) x err damping

end LevenbergMarquardt

variable {α : Type} [Scalar α]

/-- The first unknown that no term reads. -/
def Compiled.unread? (c : Compiled α) : Option String :=
  (c.unknowns.map (·.name)).find? fun name => !c.terms.any (·.unknowns.contains name)

open LevenbergMarquardt in
/-- The Levenberg–Marquardt optimizer. It keeps the names of the unknowns and the lengths of their values. The columns
of an unknown that no term reads are empty, and an iteration cannot damp them. -/
@[specialize] def levenbergMarquardt : Optimizer α := fun compiled values radius stopping =>
  match if stopping.maxIters = 0 then none else compiled.unread? with
  | some name => .error (.unread name)
  | none =>
    let x : Point α := (compiled.unknowns.map fun v => (values.get? v.name).getD []).toArray
    let (placed, n) := place x compiled.unknowns 0 0
    let names := compiled.unknowns.map (·.name)
    let terms := compiled.terms.map fun t => ⟨t, t.unknowns.filterMap fun name => names.idxOf? name⟩
    match iterate placed.toArray n terms stopping stopping.maxIters none x (error terms x) (1 / radius) with
    | some solved => .ok ⟨names.zip solved.toList⟩
    | none => .error .noConvergence

end MultiView
