import MultiView.Proofs.Reconstruction.Planned
import MultiView.Proofs.Rig.Drafting

/-!
# The problem of any dataset of rigs

Whether a dataset is valid or not, a formulation of it is well formed, and its residual blocks are those of measurements
in the images of the dataset's snapshots (`RigDataset.planned_of_formulate`).
-/

namespace MultiView

open Drafting

namespace RigDataset

variable {α : Type}

/-- The measurements in the images of snapshots. -/
def Plan (d : RigDataset α) (m : Measurement RigKey α) : Prop :=
  ∃ index s image o, d.snapshots[index]? = some s ∧ m = d.measurement index s image o

/-- Are two ids those of the blocks of a pose? -/
def PoseIds (rotation trans : RigKey) (ids : Nat × Nat) (p : Problem α) : Prop :=
  p.IsBlockOf ids.1 rotation ∧ p.IsBlockOf ids.2 trans

theorem PoseIds.extend {rotation trans : RigKey} {ids : Nat × Nat} {p p' : Problem α}
    (h : PoseIds rotation trans ids p) (hext : p.params <+: p'.params) : PoseIds rotation trans ids p' :=
  ⟨h.1.extend hext, h.2.extend hext⟩

variable {d : RigDataset α} {t : Draft RigKey α} {index : Nat} {s : Snapshot α} {image : SnapshotImage α}
  {rigPose : Nat × Nat}

theorem reading_isImageUsable (options : RigOptions α) (tracks : List Nat) (image : SnapshotImage α) :
    Reading (isImageUsable options tracks image) :=
  reading_anyM fun o _ => reading_isUsable _ _ o

theorem follows_addObservation (ht : t.Planned d.Plan) (hindex : d.snapshots[index]? = some s)
    {mounted : MountedCamera α} (hm : d.mounted? s.rig image.mount = some mounted) {camera : Camera α}
    (hcamera : d.cameras[mounted.camera]? = some camera)
    (hrigPose : PoseIds (.rigRotation index) (.rigTrans index) rigPose t.problem) {relPose : Nat × Nat}
    (hrelPose : PoseIds (.relRotation s.rig image.mount) (.relTrans s.rig image.mount) relPose t.problem)
    {cameraId : Nat} (hcameraId : t.problem.IsBlockOf cameraId (RigKey.camera mounted.camera)) (options : RigOptions α)
    (tracks : List Nat) (o : Observation α) :
    Follows d.Plan (d.addObservation options tracks camera.model rigPose relPose cameraId o) t fun _ _ => True := by
  refine ((reading_isUsable _ _ o).follows ht).bind fun isUsable u hu _ => ?_
  cases isUsable with
  | false => exact follows_pure hu.planned trivial
  | true =>
    have hplan : d.Plan (d.measurement index s image o) := ⟨index, s, image, o, hindex, rfl⟩
    rw [measurement, cameraAt_eq hm, Camera.modelAt_eq hcamera] at hplan
    refine (follows_sharePoint hu.planned _ _ _ _).bind fun point v hv hpoint => ?_
    have hext := (hu.trans hv).params
    obtain ⟨hrigRotation, hrigTrans⟩ := hrigPose.extend hext
    obtain ⟨hrelRotation, hrelTrans⟩ := hrelPose.extend hext
    exact follows_addResidual hv.planned hplan (.cons hrigRotation (.cons hrigTrans (.cons hrelRotation
      (.cons hrelTrans (.cons hpoint (.cons (hcameraId.extend hext) .nil)))))) options.loss

theorem follows_addImage (ht : t.Planned d.Plan) (hindex : d.snapshots[index]? = some s) {rig : Rig α}
    (hrig : d.rigs[s.rig]? = some rig)
    (hrigPose : PoseIds (.rigRotation index) (.rigTrans index) rigPose t.problem) (options : RigOptions α)
    (tracks : List Nat) (image : SnapshotImage α) :
    Follows d.Plan (d.addImage options tracks s rig rigPose image) t fun _ _ => True := by
  refine (follows_item ht).bind fun mounted u hu hm => (follows_item hu.planned).bind fun camera v hv hcamera => ?_
  refine (follows_share hv.planned _ (reading_pure _)).bind fun cameraId w hw hcameraId => ?_
  refine (follows_sharePose hw.planned _ _ _ _).bind fun relPose x hx hrelPose => ?_
  refine follows_forM hx.planned fun o _ y hy => ?_
  have hext := (hu.trans (hv.trans (hw.trans (hx.trans hy)))).params
  exact follows_addObservation hy.planned hindex (mounted?_eq hrig hm) hcamera (hrigPose.extend hext)
    (PoseIds.extend hrelPose hy.params) (hcameraId.extend (hx.trans hy).params) options tracks o

theorem follows_addSnapshot (ht : t.Planned d.Plan) (hindex : d.snapshots[index]? = some s) (options : RigOptions α)
    (tracks : List Nat) : Follows d.Plan (d.addSnapshot options tracks index s) t fun _ _ => True := by
  refine (follows_item ht).bind fun rig u hu hrig => ?_
  refine ((reading_anyM fun image _ => reading_isImageUsable options tracks image).follows hu.planned).bind
    fun isUsable v hv _ => ?_
  cases isUsable with
  | false => exact follows_pure hv.planned trivial
  | true =>
    refine (follows_addPose hv.planned _ _ _ _).bind fun rigPose w hw hrigPose => ?_
    refine ((reading_filterM fun image _ => reading_isImageUsable options tracks image).follows hw.planned).bind
      fun images x hx _ => ?_
    refine follows_forM hx.planned fun image _ y hy => ?_
    exact follows_addImage hy.planned hindex hrig (PoseIds.extend hrigPose (hx.trans hy).params) options tracks image

theorem follows_snapshots (options : RigOptions α) (tracks : List Nat) : Follows d.Plan
    (d.snapshots.zipIdx.forM fun (s, i) => d.addSnapshot options tracks i s) .empty fun _ _ => True :=
  follows_forM Draft.planned_empty fun _ hx _ ht =>
    follows_addSnapshot ht.planned (List.mk_mem_zipIdx_iff_getElem?.1 hx) options tracks

/-- A formulation of any dataset. -/
theorem planned_of_formulate [Scalar α] {options : RigOptions α} {f : Formulation α}
    (hf : d.formulate options = .ok f) : f.problem.WellFormed ∧ f.problem.Planned d.Plan := by
  rw [formulate, bind_eq_ok] at hf
  obtain ⟨⟨u, t⟩, hrun, hfinish⟩ := hf
  exact Draft.planned_finish (follows_snapshots options d.trackLengths u t hrun).1.planned hfinish

end RigDataset

end MultiView
