import MultiView.Camera.Basic
import MultiView.Geometry.Pose
import MultiView.Json.Record
import MultiView.Problem.Basic
import MultiView.Synthetic.Scene

/-!
# Cameras, poses, observations and losses in configurations

Each type has a reader and a writer, and the reader undoes the writer on values whose numbers are finite. Nothing is
validated or normalized here.
-/

namespace MultiView

variable {α : Type} [Scalar α]

/-! ## Cameras -/

def CameraModel.toJson (m : CameraModel) : Json α := .str m.name

/-- A model by its exact name. -/
def CameraModel.ofJson? (j : Json α) : Option CameraModel := j.choice?.bind CameraModel.ofName?

def Camera.toJson (c : Camera α) : Json α :=
  .obj [("model", c.model.toJson), ("params", .ofScalars c.params)]

def Camera.ofJson? (j : Json α) : Option (Camera α) := do
  let fields ← j.record? ["model", "params"]
  let model ← Json.required fields "model" CameraModel.ofJson?
  let params ← Json.required fields "params" (Json.list? Json.scalar?)
  return ⟨model, params⟩

/-! ## Poses and observations -/

def Pose.toJson (p : Pose α) : Json α :=
  .obj [("rotation", .ofScalars p.rot.toList), ("translation", .ofScalars p.trans.toList)]

/-- An array of exactly four numbers. -/
def Quat.ofJson? (j : Json α) : Option (Quat α) :=
  match j.list? Json.scalar? with
  | some [x, y, z, w] => some ⟨x, y, z, w⟩
  | _ => none

def Pose.ofJson? (j : Json α) : Option (Pose α) := do
  let fields ← j.record? ["rotation", "translation"]
  let rot ← Json.required fields "rotation" Quat.ofJson?
  let trans ← Json.required fields "translation" Json.vec3?
  return ⟨rot, trans⟩

def Observation.toJson (o : Observation α) : Json α :=
  .obj [("point_idx", .nat o.point), ("uv", .ofScalars o.uv.toList)]

def Observation.ofJson? (j : Json α) : Option (Observation α) := do
  let fields ← j.record? ["point_idx", "uv"]
  let point ← Json.required fields "point_idx" Json.nat?
  let uv ← Json.required fields "uv" Json.vec2?
  return ⟨point, uv⟩

/-! ## Losses -/

def RobustLoss.toJson (loss : RobustLoss α) : Json α :=
  match loss.scale? with
  | some (kind, scale) => .obj [("kind", .str kind), ("scale", .ofScalar scale)]
  | Option.none => .obj [("kind", .str "none")]

/-- The loss of a kind, with its other members in an object or an array. The kind without scale accepts an object with
any members, but an empty array only. -/
def RobustLoss.ofKind? (kind : String) (content : Json α) : Option (RobustLoss α) :=
  let scaled (make : α → RobustLoss α) : Option (RobustLoss α) := do
    let fields ← content.record? ["scale"]
    make <$> Json.required fields "scale" Json.scalar?
  match kind with
  | "none" =>
    match content with
    | .arr (_ :: _) => Option.none
    | _ => some .none
  | "huber" => scaled .huber
  | "cauchy" => scaled .cauchy
  | "arctan" => scaled .arctan
  | _ => Option.none

/-- The kind of a loss and its other members: the kind is at any place in an object, and at the head of an array. -/
def RobustLoss.kind? : Json α → Option (String × Json α)
  | .obj members =>
    match members.filter (·.1 == "kind") with
    | [(_, .str kind)] => some (kind, .obj (members.filter (·.1 != "kind")))
    | _ => Option.none
  | .arr (.str kind :: items) => some (kind, .arr items)
  | _ => Option.none

/-- A loss. As the other members are read before the kind decides which of them count, all of them have to be
readable. -/
def RobustLoss.ofJson? (j : Json α) : Option (RobustLoss α) := do
  let (kind, content) ← kind? j
  if content.isReadable then ofKind? kind content else Option.none

end MultiView
