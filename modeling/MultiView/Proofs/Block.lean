import MultiView.Block
import MultiView.Proofs.Camera.Valid

/-!
# Reading blocks back

A rotation block of four numbers, a vector block of three and an intrinsics block are read back as what they were made
from: the rotation scaled to unit length, if it has a direction (`Pose.ofBlocks_toList`), the vector as it is
(`Vec3.ofBlock_toList`), and the camera if it is valid (`Camera.ofBlock_eq_ok`).
-/

namespace MultiView

variable {α : Type}

theorem Quat.exists_toList {block : List α} (h : block.length = 4) : ∃ q : Quat α, block = q.toList := by
  obtain ⟨x, y, z, w, rfl⟩ := List.length_eq_four.1 h
  exact ⟨⟨x, y, z, w⟩, rfl⟩

theorem Vec3.exists_toList {block : List α} (h : block.length = 3) : ∃ v : Vec3 α, block = v.toList := by
  obtain ⟨x, y, z, rfl⟩ := List.length_eq_three.1 h
  exact ⟨⟨x, y, z⟩, rfl⟩

theorem Quat.toList_injective : Function.Injective (Quat.toList : Quat α → List α) := by
  rintro ⟨x, y, z, w⟩ ⟨x', y', z', w'⟩ h
  simpa [toList] using h

theorem Vec3.toList_injective : Function.Injective (Vec3.toList : Vec3 α → List α) := by
  rintro ⟨x, y, z⟩ ⟨x', y', z'⟩ h
  simpa [toList] using h

variable [Scalar α]

/-- A quaternion of positive norm with finite components. -/
structure Quat.IsDirection (q : Quat α) : Prop where
  norm : 0 < q.norm
  finite : ∀ x ∈ q.toList, Scalar.isFinite x = true

theorem Quat.isDirection_iff {q : Quat α} : q.isDirection = true ↔ q.IsDirection := by
  simp only [isDirection, Bool.and_eq_true, decide_eq_true_eq, List.all_eq_true]
  exact ⟨fun ⟨hnorm, hfinite⟩ => ⟨hnorm, hfinite⟩, fun h => ⟨h.norm, h.finite⟩⟩

@[simp] theorem Quat.ofList_toList (q : Quat α) : Quat.ofList q.toList = q := rfl

@[simp] theorem Vec3.ofList_toList (v : Vec3 α) : Vec3.ofList v.toList = v := rfl

theorem Pose.ofBlocks_toList {q : Quat α} {t : Vec3 α} {p : Pose α} :
    Pose.ofBlocks q.toList t.toList = .ok p ↔ q.IsDirection ∧ p = ⟨q.normalize, t⟩ := by
  have hrotation : q.toList.length = 4 := rfl
  have htrans : t.toList.length = 3 := rfl
  simp only [ofBlocks, bind_eq_ok, exists_unit, require_eq_ok, pure_eq_ok, hrotation, htrans, true_and]
  rw [Quat.ofList_toList, Vec3.ofList_toList, Quat.isDirection_iff, eq_comm, Pose.normalize]

theorem Vec3.ofBlock_toList (v : Vec3 α) : Vec3.ofBlock v.toList = .ok v := rfl

theorem Camera.ofBlock_eq_ok {model : CameraModel} {block : List α} {c : Camera α} :
    Camera.ofBlock model block = .ok c ↔ c = ⟨model, block⟩ ∧ c.Valid := by
  simp only [ofBlock, make, mapError_eq_ok, bind_eq_ok, exists_unit, validate_eq_ok, pure_eq_ok]
  constructor
  · rintro ⟨hvalid, rfl⟩; exact ⟨rfl, hvalid⟩
  · rintro ⟨rfl, hvalid⟩; exact ⟨hvalid, rfl⟩

end MultiView
