import MultiView.Scalar

/-!
# Vectors and matrices

Vectors of two and three components and 3 × 3 matrices over a scalar. `Vec2.ofList`, `Vec3.ofList` read a list by
position, a missing entry counting as `0`; they undo `toList`.
-/

namespace MultiView

/-- A vector of the plane: an image point, a pixel, a tangent step. -/
@[ext] structure Vec2 (α : Type) where
  x : α
  y : α

/-- A vector of space. -/
@[ext] structure Vec3 (α : Type) where
  x : α
  y : α
  z : α

/-- A 3 × 3 matrix by rows. -/
@[ext] structure Mat3 (α : Type) where
  r0 : Vec3 α
  r1 : Vec3 α
  r2 : Vec3 α

namespace Vec2

variable {α β : Type}

def toList (v : Vec2 α) : List α := [v.x, v.y]

def map (f : α → β) (v : Vec2 α) : Vec2 β := ⟨f v.x, f v.y⟩

variable [Scalar α]

def ofList (b : List α) : Vec2 α := ⟨b.getD 0 0, b.getD 1 0⟩

@[inline] protected def add (a b : Vec2 α) : Vec2 α := ⟨a.x + b.x, a.y + b.y⟩

@[inline] protected def sub (a b : Vec2 α) : Vec2 α := ⟨a.x - b.x, a.y - b.y⟩

instance : Add (Vec2 α) := ⟨Vec2.add⟩
instance : Sub (Vec2 α) := ⟨Vec2.sub⟩

/-- The taxicab length `|x| + |y|`. -/
@[inline] def taxicab (v : Vec2 α) : α := Scalar.abs v.x + Scalar.abs v.y

/-- The point `(x, y, 1)` of space that an image point stands for. -/
@[inline] def homogeneous (v : Vec2 α) : Vec3 α := ⟨v.x, v.y, 1⟩

end Vec2

namespace Vec3

variable {α β : Type}

def toList (v : Vec3 α) : List α := [v.x, v.y, v.z]

def map (f : α → β) (v : Vec3 α) : Vec3 β := ⟨f v.x, f v.y, f v.z⟩

variable [Scalar α]

def ofList (b : List α) : Vec3 α := ⟨b.getD 0 0, b.getD 1 0, b.getD 2 0⟩

def zero : Vec3 α := ⟨0, 0, 0⟩

def xAxis : Vec3 α := ⟨1, 0, 0⟩

def yAxis : Vec3 α := ⟨0, 1, 0⟩

def zAxis : Vec3 α := ⟨0, 0, 1⟩

@[inline] protected def add (a b : Vec3 α) : Vec3 α := ⟨a.x + b.x, a.y + b.y, a.z + b.z⟩

@[inline] protected def sub (a b : Vec3 α) : Vec3 α := ⟨a.x - b.x, a.y - b.y, a.z - b.z⟩

@[inline] protected def neg (a : Vec3 α) : Vec3 α := ⟨-a.x, -a.y, -a.z⟩

instance : Add (Vec3 α) := ⟨Vec3.add⟩
instance : Sub (Vec3 α) := ⟨Vec3.sub⟩
instance : Neg (Vec3 α) := ⟨Vec3.neg⟩

@[inline] def scale (v : Vec3 α) (s : α) : Vec3 α := ⟨v.x * s, v.y * s, v.z * s⟩

@[inline] def dot (a b : Vec3 α) : α := a.x * b.x + a.y * b.y + a.z * b.z

@[inline] def cross (a b : Vec3 α) : Vec3 α :=
  ⟨a.y * b.z - a.z * b.y, a.z * b.x - a.x * b.z, a.x * b.y - a.y * b.x⟩

@[inline] def normSq (v : Vec3 α) : α := v.x * v.x + v.y * v.y + v.z * v.z

@[inline] def norm (v : Vec3 α) : α := Scalar.sqrt v.normSq

/-- The vector divided by its length. -/
@[inline] def normalize (v : Vec3 α) : Vec3 α :=
  let n := v.norm
  ⟨v.x / n, v.y / n, v.z / n⟩

/-- The direction of a vector, unless its length is at most `2 ^ -52`. The test is on the length being small, so a
vector with a NaN length passes it. -/
def direction? (v : Vec3 α) : Option (Vec3 α) :=
  if v.norm ≤ 1 / Scalar.ofNat (Nat.pow 2 52) then none else some v.normalize

/-- The point at depth one on the ray of a point: `(x / z, y / z)`. -/
@[inline] def perspective (v : Vec3 α) : Vec2 α := ⟨v.x / v.z, v.y / v.z⟩

end Vec3

namespace Mat3

variable {α : Type}

def rows (m : Mat3 α) : List (Vec3 α) := [m.r0, m.r1, m.r2]

def ofColumns (c0 c1 c2 : Vec3 α) : Mat3 α := ⟨⟨c0.x, c1.x, c2.x⟩, ⟨c0.y, c1.y, c2.y⟩, ⟨c0.z, c1.z, c2.z⟩⟩

@[inline] def transpose (m : Mat3 α) : Mat3 α :=
  ⟨⟨m.r0.x, m.r1.x, m.r2.x⟩, ⟨m.r0.y, m.r1.y, m.r2.y⟩, ⟨m.r0.z, m.r1.z, m.r2.z⟩⟩

variable [Scalar α]

@[inline] def scale (m : Mat3 α) (s : α) : Mat3 α := ⟨m.r0.scale s, m.r1.scale s, m.r2.scale s⟩

@[inline] def mulVec (m : Mat3 α) (v : Vec3 α) : Vec3 α := ⟨m.r0.dot v, m.r1.dot v, m.r2.dot v⟩

@[inline] def mul (a b : Mat3 α) : Mat3 α :=
  let t := b.transpose
  ⟨t.mulVec a.r0, t.mulVec a.r1, t.mulVec a.r2⟩

/-- The matrix of the cross product with `v` on the left. -/
@[inline] def skew (v : Vec3 α) : Mat3 α := ⟨⟨0, -v.z, v.y⟩, ⟨v.z, 0, -v.x⟩, ⟨-v.y, v.x, 0⟩⟩

end Mat3

end MultiView
