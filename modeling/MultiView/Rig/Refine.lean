import MultiView.Rig.Formulation

/-!
# Running rig adjustment

`RigDataset.refine` solves the problem of a dataset and reads cameras, poses and points back from the solution.
-/

namespace MultiView

/-- A refined reconstruction from rigs. -/
structure RigResult (α : Type) where
  cameras : List (Camera α)
  /-- The poses of the cameras on each rig. -/
  relativePoses : List (List (Pose α))
  /-- The rig pose of each snapshot. -/
  rigPoses : List (Pose α)
  points : List (Vec3 α)
  initialCost : α
  finalCost : α
  numResiduals : Nat
  /-- The mean reprojection error after refinement, in pixels. -/
  meanError : α

namespace RigDataset

variable {α : Type} [Scalar α]

/-- The reconstruction of solved values. -/
def readBack (d : RigDataset α) (p : Problem α) (s : Solution α) : Except (RefineError α) (RigResult α) := do
  let cameras ← readEach (fun i c => s.params.camera (RigKey.camera i) c) d.cameras
  let relativePoses ← readEach (fun r (rig : Rig α) =>
    readEach (fun c m => s.params.pose (RigKey.relRotation r c) (.relTrans r c) m.pose) rig.cameras) d.rigs
  let rigPoses ← readEach
    (fun i snapshot => s.params.pose (RigKey.rigRotation i) (.rigTrans i) snapshot.pose) d.snapshots
  let points ← readEach (fun i x => s.params.point (RigKey.point i) x) d.points
  let meanError ← p.meanError s.params
  return ⟨cameras, relativePoses, rigPoses, points, s.initialCost, s.finalCost, p.residuals.length, meanError⟩

/-- Refine cameras, rig poses, poses on rigs and points together. -/
def refine (d : RigDataset α) (optimizer : Optimizer α) (options : RigOptions α) (solver : SolveOptions α) :
    Except (RefineError α) (RigResult α) := do
  let f ← d.formulate options
  let s ← (f.problem.solve optimizer f.initial solver).mapError .solve
  d.readBack f.problem s

end RigDataset

end MultiView
