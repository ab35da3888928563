import MultiView.Proofs.Bundle.Drafting
import MultiView.Proofs.Reconstruction.Planned

/-!
# The problem of any dataset of bundle adjustment

Whether a dataset is valid or not, a formulation of it is well formed, and its residual blocks are those of measurements
in the dataset's images (`BundleDataset.planned_of_formulate`).
-/

namespace MultiView

open Drafting

namespace BundleDataset

variable {α : Type}

/-- The measurements in the images of a dataset. -/
def Plan (d : BundleDataset α) (options : BundleOptions α) (m : Measurement BundleKey α) : Prop :=
  ∃ index image o, d.images[index]? = some image ∧ m = d.measurement options index image o

/-- Are there ids of the blocks of an image's pose if it varies, and no ids if it does not? -/
inductive PoseIds (options : BundleOptions α) (index : Nat) (p : Problem α) : Option (Nat × Nat) → Prop
  | held (h : options.constantPoses.contains index = true) : PoseIds options index p none
  | free {rotation trans : Nat} (h : ¬options.constantPoses.contains index = true)
      (hrotation : p.IsBlockOf rotation (BundleKey.rotation index))
      (htrans : p.IsBlockOf trans (BundleKey.trans index)) : PoseIds options index p (some (rotation, trans))

variable {d : BundleDataset α} {options : BundleOptions α} {s : Draft BundleKey α} {index : Nat} {image : Image α}

theorem PoseIds.extend {p p' : Problem α} {ids : Option (Nat × Nat)} (h : PoseIds options index p ids)
    (hext : p.params <+: p'.params) : PoseIds options index p' ids := by
  cases h with
  | held h => exact .held h
  | free h hrotation htrans => exact .free h (hrotation.extend hext) (htrans.extend hext)

theorem follows_addImagePose (hs : s.Planned (d.Plan options)) :
    Follows (d.Plan options) (addImagePose options index image) s fun ids p => PoseIds options index p ids := by
  unfold addImagePose
  by_cases hconstant : options.constantPoses.contains index = true
  · rw [if_pos hconstant]
    exact follows_pure hs (.held hconstant)
  · rw [if_neg hconstant, map_eq_pure_bind]
    exact (follows_addPose hs _ _ _ _).bind fun ids t ht hids =>
      follows_pure ht.planned (.free hconstant hids.1 hids.2)

theorem follows_addObservation (hs : s.Planned (d.Plan options)) (hindex : d.images[index]? = some image)
    {camera : Camera α} (hcamera : d.cameras[image.camera]? = some camera) {cameraId : Nat}
    (hcameraId : s.problem.IsBlockOf cameraId (BundleKey.camera image.camera)) {pose : Option (Nat × Nat)}
    (hpose : PoseIds options index s.problem pose) (o : Observation α) :
    Follows (d.Plan options) (d.addObservation options image camera.model cameraId pose o) s fun _ _ => True := by
  have hplan : d.Plan options (d.measurement options index image o) := ⟨index, image, o, hindex, rfl⟩
  refine (follows_sharePoint hs _ _ _ _).bind fun point t ht hpoint => ?_
  have hcameraId' := hcameraId.extend ht.params
  cases hpose.extend ht.params with
  | held h =>
    rw [measurement_of_constant h, Camera.modelAt_eq hcamera] at hplan
    exact follows_addResidual ht.planned hplan (.cons hpoint (.cons hcameraId' .nil)) options.loss
  | free h hrotation htrans =>
    rw [measurement_of_variable h, Camera.modelAt_eq hcamera] at hplan
    exact follows_addResidual ht.planned hplan
      (.cons hrotation (.cons htrans (.cons hpoint (.cons hcameraId' .nil)))) options.loss

theorem follows_addImage (hs : s.Planned (d.Plan options)) (hindex : d.images[index]? = some image)
    (tracks : List Nat) : Follows (d.Plan options) (d.addImage options tracks index image) s fun _ _ => True := by
  refine ((reading_filterM fun o _ => reading_isUsable _ _ o).follows hs).bind fun os t ht _ => ?_
  split
  · exact follows_pure ht.planned trivial
  · refine (follows_item ht.planned).bind fun camera u hu hcamera => ?_
    refine (follows_share hu.planned _ (reading_pure _)).bind fun cameraId v hv hcameraId => ?_
    refine (follows_addImagePose hv.planned).bind fun pose w hw hpose => ?_
    refine follows_forM hw.planned fun o _ x hx => ?_
    exact follows_addObservation hx.planned hindex hcamera (hcameraId.extend (hw.trans hx).params)
      (hpose.extend hx.params) o

theorem follows_images (tracks : List Nat) : Follows (d.Plan options)
    (d.images.zipIdx.forM fun (image, i) => d.addImage options tracks i image) .empty fun _ _ => True :=
  follows_forM Draft.planned_empty fun _ hx _ ht =>
    follows_addImage ht.planned (List.mk_mem_zipIdx_iff_getElem?.1 hx) tracks

/-- A formulation of any dataset. -/
theorem planned_of_formulate [Scalar α] {f : Formulation α} (hf : d.formulate options = .ok f) :
    f.problem.WellFormed ∧ f.problem.Planned (d.Plan options) := by
  rw [formulate, bind_eq_ok] at hf
  obtain ⟨⟨u, s⟩, hrun, hfinish⟩ := hf
  exact Draft.planned_finish (follows_images d.trackLengths u s hrun).1.planned hfinish

end BundleDataset

end MultiView
