import MultiView.Geometry.Quaternion

/-!
# Steps of rotations

A step of a rotation is a rotation vector: its direction is the axis and its length the angle. `plus` applies it on
the right and does not normalize.
-/

namespace MultiView.RotationStep

variable {α : Type} [Scalar α]

/-- The quaternion of a rotation vector. -/
@[inline] def exp (d : Vec3 α) : Quat α :=
  let theta2 := d.normSq
  if theta2 < Scalar.decimal 1 6 then
    ⟨d.x / Scalar.two, d.y / Scalar.two, d.z / Scalar.two, 1 - theta2 / Scalar.ofNat 8⟩
  else
    let theta := Scalar.sqrt theta2
    let w := Scalar.cos (theta / Scalar.two)
    let s := Scalar.sqrt (1 - w * w)
    ⟨d.x / theta * s, d.y / theta * s, d.z / theta * s, w⟩

/-- The rotation `q` after the step `d`. -/
@[inline] def plus (q : Quat α) (d : Vec3 α) : Quat α := q.mul (exp d)

end MultiView.RotationStep
