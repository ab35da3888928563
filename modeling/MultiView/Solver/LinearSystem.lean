import MultiView.Scalar

/-!
# Symmetric linear systems

Dense systems `A s = g` by Cholesky factorization. The factorization is total: a pivot that is negative or not a number
has no square root, so that the factor and the solution are not numbers from there on. `hasPositivePivots` tells the
factors of positive definite matrices from the others.
-/

namespace MultiView

/-- A square matrix by rows, of which the lower triangle is read. -/
abbrev SquareMatrix (α : Type) := Array (Array α)

namespace SquareMatrix

variable {α : Type} [Scalar α]

/-- The product of the first `n` entries of two arrays. -/
@[specialize] def dotUpTo (a b : Array α) : (n : Nat) → α
  | 0 => 0
  | n + 1 => dotUpTo a b n + a.getD n 0 * b.getD n 0

/-- The entries of a row of the factor left of the diagonal, from a row of the matrix and the rows of the factor above
it. -/
@[specialize] def factorLeft (row : Array α) (above : SquareMatrix α) : Array α :=
  above.foldl (fun left upper =>
    let j := left.size
    left.push ((row.getD j 0 - dotUpTo left upper j) / upper.getD j 0)) #[]

/-- The next row of the factor. -/
@[specialize] def factorRow (row : Array α) (above : SquareMatrix α) : Array α :=
  let left := factorLeft row above
  let n := left.size
  left.push (Scalar.sqrt (row.getD n 0 - dotUpTo left left n))

/-- The lower triangular factor `L` with `A = L Lᵀ`. -/
@[specialize] def cholesky (a : SquareMatrix α) : SquareMatrix α :=
  a.foldl (fun above row => above.push (factorRow row above)) #[]

/-- Are the diagonal entries of a factor positive? -/
@[specialize] def hasPositivePivots (l : SquareMatrix α) : Bool :=
  (List.range l.size).all fun i => decide (0 < (l.getD i #[]).getD i 0)

/-- The solution of `L y = g`. -/
@[specialize] def solveLower (l : SquareMatrix α) (g : Array α) : Array α :=
  l.foldl (fun y row =>
    let i := y.size
    y.push ((g.getD i 0 - dotUpTo row y i) / row.getD i 0)) #[]

/-- The solution of `Lᵀ s = y`, from the last entry to the first. -/
@[specialize] def solveUpper (l : SquareMatrix α) (y : Array α) : List α :=
  (List.range l.size).foldr (fun i later =>
    let known := Scalar.sum (later.mapIdx fun k s => (l.getD (i + 1 + k) #[]).getD i 0 * s)
    (y.getD i 0 - known) / (l.getD i #[]).getD i 0 :: later) []

/-- The solution of `L Lᵀ s = g`. -/
@[specialize] def solve (l : SquareMatrix α) (g : Array α) : List α := solveUpper l (solveLower l g)

end SquareMatrix

end MultiView
