import MultiView.Geometry.Vector

/-!
# The unit sphere

Steps on the sphere are two coordinates in an orthonormal basis of the tangent plane. `plus` follows the great circle
of a step, `minus` gives the step from one point to another. Below the angle `1e-8` the sphere counts as flat.
-/

namespace MultiView.Sphere

variable {α : Type} [Scalar α]

/-- The angle below which the sphere counts as flat. -/
@[inline] def smallAngle : α := Scalar.decimal 1 8

/-- The coordinate axis along which `x` has its smallest component, so that it is far from parallel to `x`. -/
@[inline] def flattestAxis (x : Vec3 α) : Vec3 α :=
  let ax := Scalar.abs x.x
  let ay := Scalar.abs x.y
  let az := Scalar.abs x.z
  if ax ≤ ay ∧ ax ≤ az then Vec3.xAxis else if ay ≤ az then Vec3.yAxis else Vec3.zAxis

/-- An orthonormal basis of the tangent plane at the unit vector `x`. -/
@[inline] def tangentBasis (x : Vec3 α) : Vec3 α × Vec3 α :=
  let axis := flattestAxis x
  let b1 := (axis - x.scale (x.dot axis)).normalize
  (b1, x.cross b1)

/-- The cosine of the angle whose square is `theta2`, and its sine divided by it. -/
@[inline] def cosSinc (theta2 : α) : α × α :=
  if theta2 < smallAngle * smallAngle then
    (1 - theta2 * Scalar.half, 1 - theta2 * (1 / Scalar.ofNat 6))
  else
    let theta := Scalar.sqrt theta2
    (Scalar.cos theta, Scalar.sin theta / theta)

/-- The point reached from `x` by the tangent step `d`. -/
@[specialize] def plus (x : Vec3 α) (d : Vec2 α) : Vec3 α :=
  let x := x.normalize
  let (b1, b2) := tangentBasis x
  let v := b1.scale d.x + b2.scale d.y
  let (c, s) := cosSinc v.normSq
  (x.scale c + v.scale s).normalize

/-- The tangent step from `x` to `y`. For opposite points any direction does, and the first basis vector is taken. -/
@[specialize] def minus (y x : Vec3 α) : Vec2 α :=
  let x := x.normalize
  let y := y.normalize
  let (b1, b2) := tangentBasis x
  let c := x.dot y
  let s := (x.cross y).norm
  let tangent := y - x.scale c
  let step :=
    if s < smallAngle then
      if 0 < c then Vec3.zero else b1.scale Scalar.pi
    else tangent.scale (Scalar.atan2 s c / s)
  ⟨b1.dot step, b2.dot step⟩

end MultiView.Sphere
