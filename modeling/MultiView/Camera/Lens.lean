import MultiView.Camera.Distortion

/-!
# Lenses

The intrinsic geometry of a camera, whatever its parameters are called: focal lengths, principal point, distortion.
Projection takes a point of the normalized image plane to a pixel; `unproject` goes back.
-/

namespace MultiView

structure Lens (α : Type) where
  fx : α
  fy : α
  cx : α
  cy : α
  distortion : Distortion α

namespace Lens

variable {α : Type} [Scalar α]

/-- The pixel of a normalized point. -/
@[inline] def project (l : Lens α) (p : Vec2 α) : Vec2 α :=
  let bent := p + l.distortion.offset p
  ⟨l.fx * bent.x + l.cx, l.fy * bent.y + l.cy⟩

/-- The normalized point of a pixel. -/
@[inline] def unproject (l : Lens α) (pixel : Vec2 α) : Vec2 α :=
  undistort l.distortion.offset ⟨(pixel.x - l.cx) / l.fx, (pixel.y - l.cy) / l.fy⟩

end Lens

end MultiView
