import MultiView.Geometry.Vector

/-!
# Quaternions and rotations

A quaternion `x i + y j + z k + w`, written `[x, y, z, w]` in parameter blocks. Nothing here normalizes except
`normalize`: unit length is kept by the optimizer's manifold and assumed by `rotate`. `toMat3` divides by the squared
norm, so that it gives a rotation for every nonzero quaternion.
-/

namespace MultiView

@[ext] structure Quat (α : Type) where
  x : α
  y : α
  z : α
  w : α

namespace Quat

variable {α β : Type}

def toList (q : Quat α) : List α := [q.x, q.y, q.z, q.w]

def map (f : α → β) (q : Quat α) : Quat β := ⟨f q.x, f q.y, f q.z, f q.w⟩

variable [Scalar α]

/-- The quaternion of a parameter block, read by position. -/
def ofList (b : List α) : Quat α := ⟨b.getD 0 0, b.getD 1 0, b.getD 2 0, b.getD 3 0⟩

/-- The rotation that moves nothing. -/
def one : Quat α := ⟨0, 0, 0, 1⟩

/-- The vector part. -/
@[inline] def im (q : Quat α) : Vec3 α := ⟨q.x, q.y, q.z⟩

/-- The Hamilton product: rotating by `a.mul b` rotates by `b` first. -/
@[inline] def mul (a b : Quat α) : Quat α where
  x := a.w * b.x + a.x * b.w + a.y * b.z - a.z * b.y
  y := a.w * b.y - a.x * b.z + a.y * b.w + a.z * b.x
  z := a.w * b.z + a.x * b.y - a.y * b.x + a.z * b.w
  w := a.w * b.w - a.x * b.x - a.y * b.y - a.z * b.z

/-- The rotation back, of a unit quaternion. -/
@[inline] def conj (q : Quat α) : Quat α := ⟨-q.x, -q.y, -q.z, q.w⟩

@[inline] def normSq (q : Quat α) : α := q.x * q.x + q.y * q.y + q.z * q.z + q.w * q.w

@[inline] def norm (q : Quat α) : α := Scalar.sqrt q.normSq

/-- The quaternion divided by its length. -/
@[inline] def normalize (q : Quat α) : Quat α :=
  let n := q.norm
  ⟨q.x / n, q.y / n, q.z / n, q.w / n⟩

/-- The rotation of a vector by a unit quaternion with vector part `u`: `v + w t + u × t` where `t = 2 (u × v)`. -/
@[inline] def rotate (q : Quat α) (v : Vec3 α) : Vec3 α :=
  let t := (q.im.cross v).scale Scalar.two
  t.scale q.w + q.im.cross t + v

/-- The rotation matrix of a nonzero quaternion of any length. -/
@[inline] def toMat3 (q : Quat α) : Mat3 α :=
  let aa := q.w * q.w
  let ab := q.w * q.x
  let ac := q.w * q.y
  let ad := q.w * q.z
  let bb := q.x * q.x
  let bc := q.x * q.y
  let bd := q.x * q.z
  let cc := q.y * q.y
  let cd := q.y * q.z
  let dd := q.z * q.z
  let two : α := Scalar.two
  Mat3.scale
    ⟨⟨aa + bb - cc - dd, two * (bc - ad), two * (ac + bd)⟩,
     ⟨two * (ad + bc), aa - bb + cc - dd, two * (cd - ab)⟩,
     ⟨two * (bd - ac), two * (ab + cd), aa - bb - cc + dd⟩⟩
    (1 / (aa + bb + cc + dd))

/-- A quaternion of a rotation matrix. The component that is divided by is the largest one, up to the order of the
tests, so that it is far from zero. -/
def ofMat3 (m : Mat3 α) : Quat α :=
  let quarter (d : α) : α := d / (Scalar.two * Scalar.two)
  let doubleRoot (s : α) : α := Scalar.two * Scalar.sqrt s
  let trace := m.r0.x + m.r1.y + m.r2.z
  if 0 < trace then
    let d := doubleRoot (trace + 1)
    ⟨(m.r2.y - m.r1.z) / d, (m.r0.z - m.r2.x) / d, (m.r1.x - m.r0.y) / d, quarter d⟩
  else if m.r1.y < m.r0.x ∧ m.r2.z < m.r0.x then
    let d := doubleRoot (1 + m.r0.x - m.r1.y - m.r2.z)
    ⟨quarter d, (m.r1.x + m.r0.y) / d, (m.r0.z + m.r2.x) / d, (m.r2.y - m.r1.z) / d⟩
  else if m.r2.z < m.r1.y then
    let d := doubleRoot (1 + m.r1.y - m.r0.x - m.r2.z)
    ⟨(m.r0.y + m.r1.x) / d, quarter d, (m.r1.z + m.r2.y) / d, (m.r0.z - m.r2.x) / d⟩
  else
    let d := doubleRoot (1 + m.r2.z - m.r0.x - m.r1.y)
    ⟨(m.r0.z + m.r2.x) / d, (m.r1.z + m.r2.y) / d, quarter d, (m.r1.x - m.r0.y) / d⟩

end Quat

end MultiView
