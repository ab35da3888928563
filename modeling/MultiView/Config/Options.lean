import MultiView.Bundle.Formulation
import MultiView.Config.Scene
import MultiView.RelativePose
import MultiView.Rig.Formulation
import MultiView.Solver.Options

/-!
# Options in configurations

Every field of an options record may be missing, and then has its default. The thresholds and the linear solver of
`SolveOptions` may also be `null`, which leaves them open.
-/

namespace MultiView

variable {α : Type} [Scalar α]

/-! ## Solver -/

def LinearSolver.name : LinearSolver → String
  | sparseCholesky => "SparseCholesky"
  | sparseQR => "SparseQR"

def LinearSolver.ofName? : String → Option LinearSolver
  | "SparseCholesky" => some sparseCholesky
  | "SparseQR" => some sparseQR
  | _ => none

@[simp] theorem LinearSolver.ofName?_name (s : LinearSolver) : ofName? s.name = some s := by cases s <;> rfl

def SolveOptions.toJson (o : SolveOptions α) : Json α :=
  .obj [("max_iters", .nat o.maxIters), ("verbosity", .nat o.verbosity),
    ("linear_solver", .ofOption (fun s => .str s.name) o.linearSolver),
    ("min_abs_decrease", .ofOption .ofScalar o.minAbsDecrease),
    ("min_rel_decrease", .ofOption .ofScalar o.minRelDecrease), ("min_error", .ofOption .ofScalar o.minError)]

def SolveOptions.ofJson? (j : Json α) : Option (SolveOptions α) := do
  let fields ← j.record?
    ["max_iters", "verbosity", "linear_solver", "min_abs_decrease", "min_rel_decrease", "min_error"]
  let d : SolveOptions α := .default
  let maxIters ← Json.withDefault fields "max_iters" d.maxIters Json.nat?
  let verbosity ← Json.withDefault fields "verbosity" d.verbosity Json.nat?
  let linearSolver ← Json.withDefault fields "linear_solver" d.linearSolver
    (Json.nullable? fun j => j.choice?.bind LinearSolver.ofName?)
  let minAbsDecrease ← Json.withDefault fields "min_abs_decrease" d.minAbsDecrease (Json.nullable? Json.scalar?)
  let minRelDecrease ← Json.withDefault fields "min_rel_decrease" d.minRelDecrease (Json.nullable? Json.scalar?)
  let minError ← Json.withDefault fields "min_error" d.minError (Json.nullable? Json.scalar?)
  return ⟨maxIters, verbosity, linearSolver, minAbsDecrease, minRelDecrease, minError⟩

/-! ## Reconstruction problems

The three switches of a refinement stand among the other members of the options that they belong to. -/

def Refinement.memberNames : List String := ["refine_focal_length", "refine_principal_point", "refine_extra_params"]

def Refinement.toMembers (r : Refinement) : List (String × Json α) :=
  [("refine_focal_length", .bool r.focal), ("refine_principal_point", .bool r.principal),
    ("refine_extra_params", .bool r.extra)]

def Refinement.ofMembers? (fields : List (String × Json α)) (d : Refinement) : Option Refinement := do
  let focal ← Json.withDefault fields "refine_focal_length" d.focal Json.bool?
  let principal ← Json.withDefault fields "refine_principal_point" d.principal Json.bool?
  let extra ← Json.withDefault fields "refine_extra_params" d.extra Json.bool?
  return ⟨focal, principal, extra⟩

def BundleOptions.toJson (o : BundleOptions α) : Json α :=
  .obj ([("robust_loss", o.loss.toJson)] ++ o.refine.toMembers ++
    [("constant_poses", .ofNats o.constantPoses), ("constant_points", .ofNats o.constantPoints),
      ("min_track_length", .nat o.minTrackLength)])

def BundleOptions.ofJson? (j : Json α) : Option (BundleOptions α) := do
  let fields ← j.record? (["robust_loss"] ++ Refinement.memberNames ++
    ["constant_poses", "constant_points", "min_track_length"])
  let d : BundleOptions α := .default
  let loss ← Json.withDefault fields "robust_loss" d.loss RobustLoss.ofJson?
  let refine ← Refinement.ofMembers? fields d.refine
  let constantPoses ← Json.withDefault fields "constant_poses" d.constantPoses (Json.list? Json.nat?)
  let constantPoints ← Json.withDefault fields "constant_points" d.constantPoints (Json.list? Json.nat?)
  let minTrackLength ← Json.withDefault fields "min_track_length" d.minTrackLength Json.nat?
  return ⟨loss, refine, constantPoses, constantPoints, minTrackLength⟩

def RigOptions.toJson (o : RigOptions α) : Json α :=
  .obj ([("robust_loss", o.loss.toJson)] ++ o.refine.toMembers ++
    [("refine_relative_poses", .bool o.refineRelativePoses), ("constant_rig_poses", .ofNats o.constantRigPoses),
      ("constant_points", .ofNats o.constantPoints), ("min_track_length", .nat o.minTrackLength)])

def RigOptions.ofJson? (j : Json α) : Option (RigOptions α) := do
  let fields ← j.record? (["robust_loss"] ++ Refinement.memberNames ++
    ["refine_relative_poses", "constant_rig_poses", "constant_points", "min_track_length"])
  let d : RigOptions α := .default
  let loss ← Json.withDefault fields "robust_loss" d.loss RobustLoss.ofJson?
  let refine ← Refinement.ofMembers? fields d.refine
  let refineRelativePoses ← Json.withDefault fields "refine_relative_poses" d.refineRelativePoses Json.bool?
  let constantRigPoses ← Json.withDefault fields "constant_rig_poses" d.constantRigPoses (Json.list? Json.nat?)
  let constantPoints ← Json.withDefault fields "constant_points" d.constantPoints (Json.list? Json.nat?)
  let minTrackLength ← Json.withDefault fields "min_track_length" d.minTrackLength Json.nat?
  return ⟨loss, refine, refineRelativePoses, constantRigPoses, constantPoints, minTrackLength⟩

def RelativePoseOptions.toJson (o : RelativePoseOptions α) : Json α := .obj [("robust_loss", o.loss.toJson)]

def RelativePoseOptions.ofJson? (j : Json α) : Option (RelativePoseOptions α) := do
  let fields ← j.record? ["robust_loss"]
  let d : RelativePoseOptions α := .default
  let loss ← Json.withDefault fields "robust_loss" d.loss RobustLoss.ofJson?
  return ⟨loss⟩

end MultiView
