import MultiView.Camera.Lens

/-!
# Camera models

A camera model says how a list of parameters is read as a lens.

- `simple_pinhole`: `f, cx, cy`
- `pinhole`: `fx, fy, cx, cy`
- `simple_radial`: `f, cx, cy, k`
- `radial`: `f, cx, cy, k1, k2`
- `opencv`: `fx, fy, cx, cy, k1, k2, p1, p2`

`focalIndices`, `principalIndices` and `extraIndices` split the positions of the parameters into groups that a
refinement may hold constant.
-/

namespace MultiView

inductive CameraModel where
  | simplePinhole
  | pinhole
  | simpleRadial
  | radial
  | opencv
  deriving DecidableEq, Repr

namespace CameraModel

def all : List CameraModel := [simplePinhole, pinhole, simpleRadial, radial, opencv]

/-- The name that configurations and messages use. -/
def name : CameraModel → String
  | simplePinhole => "simple_pinhole"
  | pinhole => "pinhole"
  | simpleRadial => "simple_radial"
  | radial => "radial"
  | opencv => "opencv"

/-- The model of an exact name. -/
def ofName? (s : String) : Option CameraModel := all.find? (·.name == s)

@[simp] theorem ofName?_name (m : CameraModel) : ofName? m.name = some m := by cases m <;> rfl

/-- The model of a name in any mixture of upper and lower case ASCII letters. -/
def ofNameIgnoringCase? (s : String) : Option CameraModel := ofName? (s.map Char.toLower)

def numParams : CameraModel → Nat
  | simplePinhole => 3
  | pinhole => 4
  | simpleRadial => 4
  | radial => 5
  | opencv => 8

def focalIndices : CameraModel → List Nat
  | pinhole | opencv => [0, 1]
  | simplePinhole | simpleRadial | radial => [0]

def principalIndices : CameraModel → List Nat
  | pinhole | opencv => [2, 3]
  | simplePinhole | simpleRadial | radial => [1, 2]

/-- The positions of the distortion coefficients. -/
def extraIndices : CameraModel → List Nat
  | simplePinhole | pinhole => []
  | simpleRadial => [3]
  | radial => [3, 4]
  | opencv => [4, 5, 6, 7]

variable {α : Type} [Scalar α]

/-- The lens of a list of parameters, read by position. -/
@[inline] def lens (m : CameraModel) (params : List α) : Lens α :=
  let param (i : Nat) : α := params.getD i 0
  match m with
  | simplePinhole => ⟨param 0, param 0, param 1, param 2, .none⟩
  | pinhole => ⟨param 0, param 1, param 2, param 3, .none⟩
  | simpleRadial => ⟨param 0, param 0, param 1, param 2, .radial (param 3)⟩
  | radial => ⟨param 0, param 0, param 1, param 2, .radial2 (param 3) (param 4)⟩
  | opencv => ⟨param 0, param 1, param 2, param 3, .tangential (param 4) (param 5) (param 6) (param 7)⟩

/-- The pixel of a normalized point, for exactly as many parameters as the model has. -/
def project? (m : CameraModel) (params : List α) (p : Vec2 α) : Option (Vec2 α) :=
  if params.length = m.numParams then some ((m.lens params).project p) else none

/-- The normalized point of a pixel, for at least as many parameters as the model has. -/
def unproject? (m : CameraModel) (params : List α) (pixel : Vec2 α) : Option (Vec2 α) :=
  if m.numParams ≤ params.length then some ((m.lens params).unproject pixel) else none

end CameraModel

end MultiView
