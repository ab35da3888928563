import MultiView.Camera.Model
import MultiView.Check
import MultiView.Decimal.NumberText

/-!
# Cameras

A camera is a model with its parameters. `Camera.validate` accepts the right number of parameters with positive finite
focal lengths; data that was read from a configuration may hold others until it is validated.
-/

namespace MultiView

/-- What is wrong with a camera or a model name. -/
inductive CameraError (α : Type) where
  | unknownModel (name : String)
  | paramCount (model : CameraModel) (got : Nat)
  | focalLength (index : Nat) (value : α)

def CameraError.message {α : Type} [NumberText α] : CameraError α → String
  | unknownModel name => s!"unknown camera model `{name}`"
  | paramCount model got => s!"camera model {model.name} expects {model.numParams} params, got {got}"
  | focalLength index value =>
    s!"focal length param {index} must be positive and finite, got " ++ NumberText.plain value

/-- The model of a name in any case. -/
def CameraModel.resolve {α : Type} (name : String) : Except (CameraError α) CameraModel :=
  orFail (.unknownModel name) (CameraModel.ofNameIgnoringCase? name)

structure Camera (α : Type) where
  model : CameraModel
  params : List α

namespace Camera

variable {α : Type} [Scalar α]

/-- The parameter at a position. -/
def param (c : Camera α) (i : Nat) : α := c.params.getD i 0

def validate (c : Camera α) : Except (CameraError α) Unit := do
  require (c.params.length = c.model.numParams) (.paramCount c.model c.params.length)
  c.model.focalIndices.forM fun i => require (Scalar.isPositive (c.param i)) (.focalLength i (c.param i))

/-- The camera of a model and parameters, if it is valid. -/
def make (model : CameraModel) (params : List α) : Except (CameraError α) (Camera α) := do
  let camera : Camera α := ⟨model, params⟩
  camera.validate
  return camera

/-- The mean of the focal lengths, in pixels. -/
def meanFocalLength (c : Camera α) : α :=
  Scalar.sum (c.model.focalIndices.map c.param) / Scalar.ofNat c.model.focalIndices.length

/-- The pixel of a normalized point. -/
def project (c : Camera α) (p : Vec2 α) : Vec2 α := (c.model.lens c.params).project p

/-- The normalized point of a pixel. -/
def unproject (c : Camera α) (pixel : Vec2 α) : Vec2 α := (c.model.lens c.params).unproject pixel

end Camera

end MultiView
