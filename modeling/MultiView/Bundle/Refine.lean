import MultiView.Bundle.Formulation

/-!
# Running bundle adjustment

`BundleDataset.refine` solves the problem of a dataset and reads cameras, poses and points back from the solution.
-/

namespace MultiView

/-- A refined reconstruction. -/
structure BundleResult (α : Type) where
  cameras : List (Camera α)
  poses : List (Pose α)
  points : List (Vec3 α)
  initialCost : α
  finalCost : α
  numResiduals : Nat
  /-- The mean reprojection error after refinement, in pixels. -/
  meanError : α

namespace BundleDataset

variable {α : Type} [Scalar α]

/-- The reconstruction of solved values. -/
def readBack (d : BundleDataset α) (p : Problem α) (s : Solution α) : Except (RefineError α) (BundleResult α) := do
  let cameras ← readEach (fun i c => s.params.camera (BundleKey.camera i) c) d.cameras
  let poses ← readEach (fun i image => s.params.pose (BundleKey.rotation i) (.trans i) image.pose) d.images
  let points ← readEach (fun i x => s.params.point (BundleKey.point i) x) d.points
  let meanError ← p.meanError s.params
  return ⟨cameras, poses, points, s.initialCost, s.finalCost, p.residuals.length, meanError⟩

/-- Refine cameras, poses and points together. -/
def refine (d : BundleDataset α) (optimizer : Optimizer α) (options : BundleOptions α) (solver : SolveOptions α) :
    Except (RefineError α) (BundleResult α) := do
  let f ← d.formulate options
  let s ← (f.problem.solve optimizer f.initial solver).mapError .solve
  d.readBack f.problem s

end BundleDataset

end MultiView
