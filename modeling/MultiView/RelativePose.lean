import MultiView.Reconstruction.Basic

/-!
# Two-view relative pose

The rotation and the direction of motion between two calibrated views, refined on the Sampson errors of point
correspondences. Two views show the motion's direction only, so it is a point of the unit sphere.
-/

namespace MultiView

structure RelativePoseOptions (α : Type) where
  loss : RobustLoss α

def RelativePoseOptions.default {α : Type} [Scalar α] : RelativePoseOptions α := ⟨.cauchy 1⟩

/-- Corresponding normalized image points in two views, and a guess of the pose from the first view to the second. -/
structure TwoViews (α : Type) where
  points1 : List (Vec2 α)
  points2 : List (Vec2 α)
  guess : Pose α

structure RelativePoseResult (α : Type) where
  /-- The pose from the first view to the second; both its parts have unit length. -/
  pose : Pose α
  initialCost : α
  finalCost : α

inductive RelativePoseError (α : Type) where
  | countMismatch (count1 count2 : Nat)
  | tooFew (count : Nat)
  | zeroTrans
  | collapsed
  | missingBlock (name : String)
  | refine (error : RefineError α)

namespace RelativePose

/-- Five correspondences pin down the five degrees of freedom. -/
def minCorrespondences : Nat := 5

end RelativePose

def RelativePoseError.message {α : Type} [NumberText α] : RelativePoseError α → String
  | countMismatch count1 count2 => s!"correspondence count mismatch: {count1} vs {count2}"
  | tooFew count => s!"need at least {RelativePose.minCorrespondences} correspondences, got {count}"
  | zeroTrans => "initial translation must be non-zero"
  | collapsed => "refined translation collapsed to zero"
  | missingBlock name => s!"solution is missing {name}"
  | refine error => error.message

/-- The blocks of a relative pose. -/
inductive RelativePoseKey where
  | rotation
  | trans
  deriving DecidableEq, Repr

instance : BlockKey RelativePoseKey where
  name
    | .rotation => "rotation"
    | .trans => "translation"

namespace TwoViews

variable {α : Type} [Scalar α]

/-- One measurement for each correspondence. -/
def measurements (v : TwoViews α) : List (Measurement RelativePoseKey α) :=
  List.zipWith (fun x1 x2 => ⟨.relativePose x1 x2, [.rotation, .trans]⟩) v.points1 v.points2

/-- The contents of the blocks, with a unit direction of motion. -/
def blockSpec (rotation : Quat α) (direction : Vec3 α) : RelativePoseKey → BlockSpec α
  | .rotation => ⟨rotation.toList, .so3, .free⟩
  | .trans => ⟨direction.toList, .s2, .free⟩

/-- The problem of enough correspondences and a guess that moves. -/
def formulate (v : TwoViews α) (options : RelativePoseOptions α) :
    Except (RelativePoseError α) (Formulation α) := do
  require (v.points1.length = v.points2.length) (.countMismatch v.points1.length v.points2.length)
  require (RelativePose.minCorrespondences ≤ v.points1.length) (.tooFew v.points1.length)
  let direction ← orFail .zeroTrans v.guess.trans.direction?
  let f := Measurement.assemble (blockSpec v.guess.rot direction) options.loss [.rotation, .trans] v.measurements
  f.problem.validate.mapError fun e => .refine (.invalid e)
  return f

/-- The value of a block of a solution. -/
def solved (s : Solution α) (k : RelativePoseKey) : Except (RelativePoseError α) (List α) :=
  orFail (.missingBlock (BlockKey.name k)) (s.params.block? k)

/-- The pose of solved values. -/
def readBack (s : Solution α) : Except (RelativePoseError α) (RelativePoseResult α) := do
  let rotation ← (Quat.ofBlock (← solved s .rotation)).mapError fun e => .refine (.block e)
  let trans ← (Vec3.ofBlock (← solved s .trans)).mapError fun e => .refine (.block e)
  let direction ← orFail .collapsed trans.direction?
  return ⟨⟨rotation, direction⟩, s.initialCost, s.finalCost⟩

/-- Refine the guess. -/
def refine (v : TwoViews α) (optimizer : Optimizer α) (options : RelativePoseOptions α) (solver : SolveOptions α) :
    Except (RelativePoseError α) (RelativePoseResult α) := do
  let f ← v.formulate options
  let s ← (f.problem.solve optimizer f.initial solver).mapError fun e => .refine (.solve e)
  readBack s

end TwoViews

end MultiView
