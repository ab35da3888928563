import Mathlib
import MultiView.Camera.Model
import MultiView.Proofs.Camera.BackProjection

/-!
# Nested camera models

Where coefficients are zero or focal lengths are equal, a camera model is a simpler one: `opencv` without tangential
coefficients is `radial`, this is `simple_radial` without its second coefficient, and without any coefficient both
pinhole models are left (`CameraModel.nested`). Models that bend the plane alike undo it alike, whether or not their
iterations converge: they visit the same points and stop at the same one (`Lens.alike_of_offset`).
-/

namespace MultiView

/-! ## Visited points -/

section Visited

variable {α : Type} [Scalar α]

/-- The points that the iteration visits after the one that it starts from, in order. -/
def Undistort.visited (offset : Vec2 α → Vec2 α) (target : Vec2 α) : (passes : Nat) → (p : Vec2 α) → List (Vec2 α)
  | 0, _ => []
  | passes + 1, p =>
    let next := target - offset p
    next :: if (next - p).taxicab < tolerance then [] else visited offset target passes next

/-- The iteration ends at the last point that it visits. -/
theorem Undistort.getLast?_visited (offset : Vec2 α → Vec2 α) (target : Vec2 α) (passes : Nat) (p : Vec2 α) :
    (visited offset target passes p).getLast?.getD p = iterate offset target passes p := by
  induction passes generalizing p with
  | zero => rfl
  | succ passes ih =>
    rw [visited, iterate]
    split
    · rfl
    · rw [← ih, List.getLast?_cons, Option.getD_some]

/-- The points that are visited on the way back from a pixel. -/
def Lens.visited (l : Lens α) (pixel : Vec2 α) : List (Vec2 α) :=
  let target : Vec2 α := ⟨(pixel.x - l.cx) / l.fx, (pixel.y - l.cy) / l.fy⟩
  Undistort.visited l.distortion.offset target Undistort.maxPasses target

/-- The last of them is where the pixel comes from. -/
theorem Lens.getLast?_visited (l : Lens α) (pixel : Vec2 α) :
    (l.visited pixel).getLast? = some (l.unproject pixel) := by
  rw [visited, unproject, undistort, ← Undistort.getLast?_visited, Undistort.maxPasses, Undistort.visited,
    List.getLast?_cons, Option.getD_some]

/-- Lenses that map points to the same pixels, and that go back from pixels over the same points to the same end. -/
structure Lens.Alike (l l' : Lens α) : Prop where
  project : ∀ p, l.project p = l'.project p
  visited : ∀ pixel, l.visited pixel = l'.visited pixel
  unproject : ∀ pixel, l.unproject pixel = l'.unproject pixel

/-- Lenses of the same lengths and principal points that bend the plane alike. -/
theorem Lens.alike_of_offset {fx fy cx cy : α} {d d' : Distortion α} (h : d.offset = d'.offset) :
    Alike ⟨fx, fy, cx, cy, d⟩ ⟨fx, fy, cx, cy, d'⟩ := by
  have hvisited : ∀ pixel, visited ⟨fx, fy, cx, cy, d⟩ pixel = visited ⟨fx, fy, cx, cy, d'⟩ pixel := fun pixel => by
    rw [visited, visited, h]
  refine ⟨fun p => by rw [Lens.project, Lens.project, h], hvisited, fun pixel => Option.some.inj ?_⟩
  rw [← getLast?_visited, hvisited, getLast?_visited]

end Visited

/-! ## Camera models -/

namespace CameraModel

/-- Models that map points to the same pixels, each with its own parameters, and that go back over the same points. -/
structure Alike (m : CameraModel) (params : List ℝ) (m' : CameraModel) (params' : List ℝ) : Prop where
  project : ∀ p, ∃ pixel, m.project? params p = some pixel ∧ m'.project? params' p = some pixel
  unproject : ∀ pixel, ∃ p, m.unproject? params pixel = some p ∧ m'.unproject? params' pixel = some p
  visited : ∀ pixel, (m.lens params).visited pixel = (m'.lens params').visited pixel

theorem alike_of_lens {m m' : CameraModel} {params params' : List ℝ} (hcount : params.length = m.numParams)
    (hcount' : params'.length = m'.numParams) (h : (m.lens params).Alike (m'.lens params')) :
    m.Alike params m' params' where
  project p := ⟨_, if_pos hcount, (if_pos hcount').trans (congrArg some (h.project p).symm)⟩
  unproject pixel := ⟨_, if_pos hcount.ge, (if_pos hcount'.ge).trans (congrArg some (h.unproject pixel).symm)⟩
  visited := h.visited

/-- Each model is the next more general one with coefficients that are zero or focal lengths that are equal; without
distortion the way back from a pixel is direct. -/
theorem nested (f cx cy k k1 k2 : ℝ) :
    radial.Alike [f, cx, cy, k1, k2] opencv [f, f, cx, cy, k1, k2, 0, 0] ∧
      simpleRadial.Alike [f, cx, cy, k] radial [f, cx, cy, k, 0] ∧
      simplePinhole.Alike [f, cx, cy] simpleRadial [f, cx, cy, 0] ∧
      simplePinhole.Alike [f, cx, cy] pinhole [f, f, cx, cy] ∧
      ∀ pixel, simplePinhole.unproject? [f, cx, cy] pixel = some ⟨(pixel.x - cx) / f, (pixel.y - cy) / f⟩ := by
  refine ⟨?_, ?_, ?_, ?_, fun pixel => ?_⟩
  · exact alike_of_lens rfl rfl (Lens.alike_of_offset (Distortion.offset_tangential_zero k1 k2).symm)
  · exact alike_of_lens rfl rfl (Lens.alike_of_offset (Distortion.offset_radial2_zero k).symm)
  · exact alike_of_lens rfl rfl (Lens.alike_of_offset Distortion.offset_radial_zero.symm)
  · exact alike_of_lens rfl rfl (Lens.alike_of_offset rfl)
  · exact (if_pos le_rfl).trans (congrArg some (Distortion.undistort_none _))

end CameraModel

end MultiView
