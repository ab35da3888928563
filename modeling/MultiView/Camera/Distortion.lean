import MultiView.Geometry.Vector

/-!
# Lens distortion

A distortion moves a point `p` of the normalized image plane to `p + offset p`. Undoing it means solving
`p + offset p = q` for `p`, by iterating `p ↦ q - offset p` from `q` until a step is short or the passes run out.
-/

namespace MultiView

/-- How a lens bends the normalized image plane. -/
inductive Distortion (α : Type) where
  | none
  /-- One radial coefficient. -/
  | radial (k : α)
  /-- Two radial coefficients. -/
  | radial2 (k1 k2 : α)
  /-- Two radial and two tangential coefficients. -/
  | tangential (k1 k2 p1 p2 : α)

namespace Distortion

variable {α : Type} [Scalar α]

/-- What the distortion adds to a point. -/
@[inline] def offset (d : Distortion α) (p : Vec2 α) : Vec2 α :=
  let x2 := p.x * p.x
  let y2 := p.y * p.y
  let r2 := x2 + y2
  match d with
  | none => ⟨0, 0⟩
  | radial k =>
    let bend := k * r2
    ⟨p.x * bend, p.y * bend⟩
  | radial2 k1 k2 =>
    let bend := k1 * r2 + k2 * r2 * r2
    ⟨p.x * bend, p.y * bend⟩
  | tangential k1 k2 p1 p2 =>
    let xy := p.x * p.y
    let bend := k1 * r2 + k2 * r2 * r2
    let two : α := Scalar.two
    ⟨p.x * bend + two * p1 * xy + p2 * (r2 + two * x2), p.y * bend + two * p2 * xy + p1 * (r2 + two * y2)⟩

end Distortion

namespace Undistort

variable {α : Type} [Scalar α]

/-- The most passes of the iteration. -/
def maxPasses : Nat := 100

/-- A step shorter than this ends the iteration. -/
@[inline] def tolerance : α := Scalar.decimal 1 10

/-- At most `passes` steps `p ↦ target - offset p`, the last of which may be a short one. -/
@[specialize] def iterate (offset : Vec2 α → Vec2 α) (target : Vec2 α) : (passes : Nat) → (p : Vec2 α) → Vec2 α
  | 0, p => p
  | passes + 1, p =>
    let next := target - offset p
    if (next - p).taxicab < tolerance then next else iterate offset target passes next

end Undistort

/-- The point that `offset` moves to `target`, found by fixed-point iteration from `target` itself. -/
@[inline] def undistort {α : Type} [Scalar α] (offset : Vec2 α → Vec2 α) (target : Vec2 α) : Vec2 α :=
  Undistort.iterate offset target Undistort.maxPasses target

end MultiView
