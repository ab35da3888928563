import MultiView.Camera.Basic
import MultiView.Proofs.Check

/-!
# Valid cameras

`Camera.validate` accepts exactly the cameras with as many parameters as their model has and positive finite focal
lengths (`Camera.validate_eq_ok`), and otherwise reports a wrong count or the first bad focal length (`Camera.Fault`).
-/

namespace MultiView

/-- Every model has a parameter. -/
theorem CameraModel.numParams_pos (m : CameraModel) : 0 < m.numParams := by
  cases m <;> decide

variable {α : Type}

/-- The model of the camera at a position; any model where there is no camera. -/
def Camera.modelAt (cameras : List (Camera α)) (i : Nat) : CameraModel := (cameras[i]?.map (·.model)).getD .pinhole

theorem Camera.modelAt_eq {cameras : List (Camera α)} {i : Nat} {c : Camera α} (h : cameras[i]? = some c) :
    modelAt cameras i = c.model := by
  rw [modelAt, h]; rfl

variable [Scalar α]

structure Camera.Valid (c : Camera α) : Prop where
  count : c.params.length = c.model.numParams
  focal : ∀ i ∈ c.model.focalIndices, Scalar.isPositive (c.param i) = true

theorem Camera.validate_eq_ok {c : Camera α} {u : Unit} : c.validate = .ok u ↔ c.Valid := by
  simp only [validate, List.forM_eq_forM, bind_eq_ok, exists_unit, require_eq_ok, forM_eq_ok]
  constructor
  · rintro ⟨hcount, hfocal⟩; exact ⟨hcount, hfocal⟩
  · intro h; exact ⟨h.count, h.focal⟩

theorem Camera.mapError_validate_eq_ok {ε : Type} (error : CameraError α → ε) (c : Camera α) :
    c.validate.mapError error = .ok () ↔ c.Valid := by
  rw [mapError_eq_ok, Camera.validate_eq_ok]

theorem Camera.checkEach_validate_eq_ok {ε : Type} {error : Nat → CameraError α → ε} {start : Nat}
    {cameras : List (Camera α)} {u : Unit} :
    checkEach (fun i (c : Camera α) => c.validate.mapError (error i)) start cameras = .ok u ↔
      ∀ c ∈ cameras, c.Valid :=
  checkEach_eq_ok_of_mem fun i c => Camera.mapError_validate_eq_ok (error i) c

/-- The first thing that is wrong with a camera. -/
inductive Camera.Fault (c : Camera α) : CameraError α → Prop
  | count (hcount : c.params.length ≠ c.model.numParams) : Fault c (.paramCount c.model c.params.length)
  | focal (hcount : c.params.length = c.model.numParams) {n i : Nat}
      (hi : Reaches (fun j => Scalar.isPositive (c.param j) = true) c.model.focalIndices n i)
      (hbad : ¬Scalar.isPositive (c.param i) = true) : Fault c (.focalLength i (c.param i))

theorem Camera.validate_eq_error {c : Camera α} {e : CameraError α} : c.validate = .error e ↔ c.Fault e := by
  simp only [validate, List.forM_eq_forM, bind_eq_error, require_eq_error, require_eq_ok, exists_unit,
    forM_eq_error_iff_reaches fun i => require_eq_ok]
  constructor
  · rintro (⟨hcount, rfl⟩ | ⟨hcount, n, i, hi, hbad, rfl⟩)
    · exact .count hcount
    · exact .focal hcount hi hbad
  · intro h
    cases h with
    | count hcount => exact .inl ⟨hcount, rfl⟩
    | focal hcount hi hbad => exact .inr ⟨hcount, _, _, hi, hbad, rfl⟩

/-- The error of a list of cameras is that of the first one that is not valid. -/
theorem Camera.checkEach_validate_eq_error {ε : Type} {error : Nat → CameraError α → ε} {cameras : List (Camera α)}
    {e : ε} : checkEach (fun i (c : Camera α) => c.validate.mapError (error i)) 0 cameras = .error e ↔
      ∃ i c e', Reaches Camera.Valid cameras i c ∧ c.Fault e' ∧ e = error i e' := by
  rw [checkEach_eq_error_iff_reaches fun i c => Camera.mapError_validate_eq_ok (error i) c]
  simp only [mapError_eq_error, Camera.validate_eq_error, exists_and_left]

end MultiView
