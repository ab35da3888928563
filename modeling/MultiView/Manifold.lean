/-!
# Manifolds of parameter blocks

A parameter block is a list of numbers that stands for a point of a manifold: of a vector space, of the unit
quaternions, or of the unit sphere.
-/

namespace MultiView

inductive Manifold where
  /-- Any vector. -/
  | euclidean
  /-- Unit quaternions `[x, y, z, w]`. -/
  | so3
  /-- Unit vectors of space. -/
  | s2
  deriving DecidableEq, Repr

namespace Manifold

def name : Manifold → String
  | euclidean => "Euclidean"
  | so3 => "SO3"
  | s2 => "S2"

/-- Is this a length of blocks on the manifold? -/
def admits : Manifold → Nat → Bool
  | euclidean, dim => decide (0 < dim)
  | so3, dim => decide (dim = 4)
  | s2, dim => decide (dim = 3)

end Manifold

end MultiView
