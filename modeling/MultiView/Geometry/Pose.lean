import MultiView.Geometry.Quaternion

/-!
# Rigid poses

A pose moves a point by rotating it and then adding `trans`. Camera poses map world coordinates to the camera frame,
which looks along its `z` axis.
-/

namespace MultiView

/-- A rigid motion `p ↦ rot · p + trans`. -/
@[ext] structure Pose (α : Type) where
  rot : Quat α
  trans : Vec3 α

namespace Pose

variable {α β : Type}

def map (f : α → β) (p : Pose α) : Pose β := ⟨p.rot.map f, p.trans.map f⟩

variable [Scalar α]

def one : Pose α := ⟨Quat.one, Vec3.zero⟩

/-- The image of a point. -/
@[inline] def apply (p : Pose α) (v : Vec3 α) : Vec3 α := p.rot.rotate v + p.trans

/-- The motion by `inner`, followed by `outer`. -/
@[inline] def comp (outer inner : Pose α) : Pose α :=
  ⟨outer.rot.mul inner.rot, outer.rot.rotate inner.trans + outer.trans⟩

/-- The motion back, of a pose with unit rotation. -/
def inverse (p : Pose α) : Pose α :=
  let back := p.rot.conj
  ⟨back, back.rotate (-p.trans)⟩

/-- The pose with its rotation scaled to unit length. -/
def normalize (p : Pose α) : Pose α := ⟨p.rot.normalize, p.trans⟩

/-- The frame at `eye` whose third axis points at `target` and whose first axis is orthogonal to `up`. -/
def frameTowards (eye target up : Vec3 α) : Pose α :=
  let z := (target - eye).normalize
  let x := (up.cross z).normalize
  let y := z.cross x
  ⟨Quat.ofMat3 (Mat3.ofColumns x y z), eye⟩

/-- The world-to-camera pose of a camera at `eye` that looks at `target`, level with respect to the `y` axis. -/
def lookAt (eye target : Vec3 α) : Pose α := (frameTowards eye target Vec3.yAxis).inverse

end Pose

end MultiView
