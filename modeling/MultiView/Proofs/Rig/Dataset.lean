import MultiView.Rig.Dataset
import MultiView.Proofs.Camera.Valid

/-!
# Valid datasets of rigs

`RigDataset.validate` accepts exactly the datasets with a snapshot, valid cameras and rigs with cameras, in which
everything that is referred to exists (`RigDataset.validate_eq_ok`), and otherwise reports the first thing that is
wrong, cameras before rigs before snapshots and in the order of the lists (`RigDataset.Fault`).
-/

namespace MultiView

namespace RigDataset

variable {α : Type}

theorem mem_observations {d : RigDataset α} {o : Observation α} :
    o ∈ d.observations ↔ ∃ s ∈ d.snapshots, ∃ image ∈ s.images, o ∈ image.observations := by
  simp only [observations, List.mem_flatMap]

/-- Do an image's position on a rig and its points exist? -/
structure ValidImage (d : RigDataset α) (rig : Rig α) (image : SnapshotImage α) : Prop where
  mount : image.mount < rig.cameras.length
  point : ∀ o ∈ image.observations, o.point < d.points.length

theorem checkRig_eq_ok {d : RigDataset α} {index : Nat} {rig : Rig α} {u : Unit} :
    d.checkRig index rig = .ok u ↔ rig.cameras ≠ [] ∧ ∀ c ∈ rig.cameras, c.camera < d.cameras.length := by
  simp only [checkRig, List.forM_eq_forM, bind_eq_ok, exists_unit, require_eq_ok, forM_eq_ok]

theorem checkImage_eq_ok {d : RigDataset α} {index : Nat} {s : Snapshot α} {rig : Rig α} {image : SnapshotImage α}
    {u : Unit} : d.checkImage index s rig image = .ok u ↔ d.ValidImage rig image := by
  simp only [checkImage, List.forM_eq_forM, bind_eq_ok, exists_unit, require_eq_ok, forM_eq_ok]
  constructor
  · rintro ⟨hmount, hpoint⟩; exact ⟨hmount, hpoint⟩
  · intro h; exact ⟨h.mount, h.point⟩

theorem checkSnapshot_eq_ok {d : RigDataset α} {index : Nat} {s : Snapshot α} {u : Unit} :
    d.checkSnapshot index s = .ok u ↔
      ∃ rig, d.rigs[s.rig]? = some rig ∧ ∀ image ∈ s.images, d.ValidImage rig image := by
  simp only [checkSnapshot, List.forM_eq_forM, bind_eq_ok, orFail_eq_ok, forM_eq_ok, checkImage_eq_ok]

/-- The first thing that is wrong with the rig at a position. -/
inductive RigFault (d : RigDataset α) (index : Nat) (rig : Rig α) : RigDatasetError α → Prop
  | empty (hcameras : rig.cameras = []) : RigFault d index rig (.emptyRig index)
  | camera (hcameras : rig.cameras ≠ []) {n : Nat} {c : MountedCamera α}
      (hc : Reaches (fun c => c.camera < d.cameras.length) rig.cameras n c) (hcamera : d.cameras.length ≤ c.camera) :
      RigFault d index rig (.missingCamera index c.camera d.cameras.length)

/-- The first thing that is wrong with an image of the snapshot at a position. -/
inductive ImageFault (d : RigDataset α) (index : Nat) (s : Snapshot α) (rig : Rig α) (image : SnapshotImage α) :
    RigDatasetError α → Prop
  | mount (hmount : rig.cameras.length ≤ image.mount) :
      ImageFault d index s rig image (.missingMount index image.mount s.rig rig.cameras.length)
  | point (hmount : image.mount < rig.cameras.length) {n : Nat} {o : Observation α}
      (ho : Reaches (fun o => o.point < d.points.length) image.observations n o) (hpoint : d.points.length ≤ o.point) :
      ImageFault d index s rig image (.missingPoint index o.point d.points.length)

/-- The first thing that is wrong with the snapshot at a position: its rig, or an image, which is held against that very
rig. -/
inductive SnapshotFault (d : RigDataset α) (index : Nat) (s : Snapshot α) : RigDatasetError α → Prop
  | rig (hrig : d.rigs.length ≤ s.rig) : SnapshotFault d index s (.missingRig index s.rig d.rigs.length)
  | image {rig : Rig α} (hrig : d.rigs[s.rig]? = some rig) {n : Nat} {image : SnapshotImage α} {e : RigDatasetError α}
      (himage : Reaches (d.ValidImage rig) s.images n image) (hfault : d.ImageFault index s rig image e) :
      SnapshotFault d index s e

theorem checkRig_eq_error {d : RigDataset α} {index : Nat} {rig : Rig α} {e : RigDatasetError α} :
    d.checkRig index rig = .error e ↔ d.RigFault index rig e := by
  simp only [checkRig, List.forM_eq_forM, bind_eq_error, require_eq_error, require_eq_ok, exists_unit, not_not,
    forM_require_lt_eq_error]
  constructor
  · rintro (⟨hcameras, rfl⟩ | ⟨hcameras, n, c, hc, hcamera, rfl⟩)
    · exact .empty hcameras
    · exact .camera hcameras hc hcamera
  · intro h
    cases h with
    | empty hcameras => exact .inl ⟨hcameras, rfl⟩
    | camera hcameras hc hcamera => exact .inr ⟨hcameras, _, _, hc, hcamera, rfl⟩

theorem checkImage_eq_error {d : RigDataset α} {index : Nat} {s : Snapshot α} {rig : Rig α} {image : SnapshotImage α}
    {e : RigDatasetError α} : d.checkImage index s rig image = .error e ↔ d.ImageFault index s rig image e := by
  simp only [checkImage, List.forM_eq_forM, bind_eq_error, require_eq_error, require_eq_ok, exists_unit, Nat.not_lt,
    forM_require_lt_eq_error]
  constructor
  · rintro (⟨hmount, rfl⟩ | ⟨hmount, n, o, ho, hpoint, rfl⟩)
    · exact .mount hmount
    · exact .point hmount ho hpoint
  · intro h
    cases h with
    | mount hmount => exact .inl ⟨hmount, rfl⟩
    | point hmount ho hpoint => exact .inr ⟨hmount, _, _, ho, hpoint, rfl⟩

theorem checkSnapshot_eq_error {d : RigDataset α} {index : Nat} {s : Snapshot α} {e : RigDatasetError α} :
    d.checkSnapshot index s = .error e ↔ d.SnapshotFault index s e := by
  have himage : ∀ rig image, d.checkImage index s rig image = .ok () ↔ d.ValidImage rig image :=
    fun _ _ => checkImage_eq_ok
  simp only [checkSnapshot, List.forM_eq_forM, bind_eq_error, orFail_eq_error, orFail_eq_ok,
    List.getElem?_eq_none_iff, forM_eq_error_iff_reaches (himage _), checkImage_eq_error]
  constructor
  · rintro (⟨hrig, rfl⟩ | ⟨rig, hrig, n, image, himage, hfault⟩)
    · exact .rig hrig
    · exact .image hrig himage hfault
  · intro h
    cases h with
    | rig hrig => exact .inl ⟨hrig, rfl⟩
    | image hrig himage hfault => exact .inr ⟨_, hrig, _, _, himage, hfault⟩

variable [Scalar α]

structure Valid (d : RigDataset α) : Prop where
  snapshots : d.snapshots ≠ []
  cameras : ∀ c ∈ d.cameras, c.Valid
  mounted : ∀ rig ∈ d.rigs, rig.cameras ≠ [] ∧ ∀ c ∈ rig.cameras, c.camera < d.cameras.length
  images : ∀ s ∈ d.snapshots, ∃ rig, d.rigs[s.rig]? = some rig ∧ ∀ image ∈ s.images, d.ValidImage rig image

theorem validate_eq_ok {d : RigDataset α} {u : Unit} : d.validate = .ok u ↔ d.Valid := by
  have hrig : ∀ i rig, d.checkRig i rig = .ok () ↔ _ := fun _ _ => checkRig_eq_ok
  have hsnapshot : ∀ i s, d.checkSnapshot i s = .ok () ↔ _ := fun _ _ => checkSnapshot_eq_ok
  simp only [validate, bind_eq_ok, exists_unit, require_eq_ok, Camera.checkEach_validate_eq_ok,
    checkEach_eq_ok_of_mem hrig, checkEach_eq_ok_of_mem hsnapshot]
  constructor
  · rintro ⟨hsnapshots, hcameras, hrigs, himages⟩; exact ⟨hsnapshots, hcameras, hrigs, himages⟩
  · intro h; exact ⟨h.snapshots, h.cameras, h.mounted, h.images⟩

theorem make_eq_ok {cameras : List (Camera α)} {rigs : List (Rig α)} {snapshots : List (Snapshot α)}
    {points : List (Vec3 α)} {d : RigDataset α} :
    make cameras rigs snapshots points = .ok d ↔ d = ⟨cameras, rigs, snapshots, points⟩ ∧ d.Valid := by
  simp only [make, bind_eq_ok, exists_unit, validate_eq_ok, pure_eq_ok]
  constructor
  · rintro ⟨h, rfl⟩; exact ⟨rfl, h⟩
  · rintro ⟨rfl, h⟩; exact ⟨h, rfl⟩

/-! ## Faults -/

/-- The first thing that is wrong with a dataset. -/
inductive Fault (d : RigDataset α) : RigDatasetError α → Prop
  | noSnapshots (hsnapshots : d.snapshots = []) : Fault d .noSnapshots
  | camera (hsnapshots : d.snapshots ≠ []) {i : Nat} {c : Camera α} {e : CameraError α}
      (hc : Reaches Camera.Valid d.cameras i c) (hfault : c.Fault e) : Fault d (.invalidCamera i e)
  | rig (hsnapshots : d.snapshots ≠ []) (hcameras : ∀ c ∈ d.cameras, c.Valid) {i : Nat} {rig : Rig α}
      {e : RigDatasetError α}
      (hrig : Reaches (fun rig => rig.cameras ≠ [] ∧ ∀ c ∈ rig.cameras, c.camera < d.cameras.length) d.rigs i rig)
      (hfault : d.RigFault i rig e) : Fault d e
  | snapshot (hsnapshots : d.snapshots ≠ []) (hcameras : ∀ c ∈ d.cameras, c.Valid)
      (hrigs : ∀ rig ∈ d.rigs, rig.cameras ≠ [] ∧ ∀ c ∈ rig.cameras, c.camera < d.cameras.length) {i : Nat}
      {s : Snapshot α} {e : RigDatasetError α}
      (hs : Reaches (fun s => ∃ rig, d.rigs[s.rig]? = some rig ∧ ∀ image ∈ s.images, d.ValidImage rig image)
        d.snapshots i s)
      (hfault : d.SnapshotFault i s e) : Fault d e

theorem validate_eq_error {d : RigDataset α} {e : RigDatasetError α} : d.validate = .error e ↔ d.Fault e := by
  have hrig : ∀ i rig, d.checkRig i rig = .ok () ↔ _ := fun _ _ => checkRig_eq_ok
  have hsnapshot : ∀ i s, d.checkSnapshot i s = .ok () ↔ _ := fun _ _ => checkSnapshot_eq_ok
  simp only [validate, bind_eq_error, require_eq_error, require_eq_ok, exists_unit, not_not,
    Camera.checkEach_validate_eq_error, Camera.checkEach_validate_eq_ok, checkEach_eq_ok_of_mem hrig,
    checkEach_eq_error_iff_reaches hrig, checkEach_eq_error_iff_reaches hsnapshot, checkRig_eq_error,
    checkSnapshot_eq_error]
  constructor
  · rintro (⟨hsnapshots, rfl⟩ | ⟨hsnapshots, ⟨i, c, e', hc, hfault, rfl⟩ | ⟨hcameras, ⟨i, rig, hrig, hfault⟩ |
      ⟨hrigs, i, s, hs, hfault⟩⟩⟩)
    · exact .noSnapshots hsnapshots
    · exact .camera hsnapshots hc hfault
    · exact .rig hsnapshots hcameras hrig hfault
    · exact .snapshot hsnapshots hcameras hrigs hs hfault
  · intro h
    cases h with
    | noSnapshots hsnapshots => exact .inl ⟨hsnapshots, rfl⟩
    | camera hsnapshots hc hfault => exact .inr ⟨hsnapshots, .inl ⟨_, _, _, hc, hfault, rfl⟩⟩
    | rig hsnapshots hcameras hrig hfault => exact .inr ⟨hsnapshots, .inr ⟨hcameras, .inl ⟨_, _, hrig, hfault⟩⟩⟩
    | snapshot hsnapshots hcameras hrigs hs hfault =>
      exact .inr ⟨hsnapshots, .inr ⟨hcameras, .inr ⟨hrigs, _, _, hs, hfault⟩⟩⟩

theorem make_eq_error {cameras : List (Camera α)} {rigs : List (Rig α)} {snapshots : List (Snapshot α)}
    {points : List (Vec3 α)} {e : RigDatasetError α} :
    make cameras rigs snapshots points = .error e ↔ Fault ⟨cameras, rigs, snapshots, points⟩ e := by
  simp only [make, bind_eq_error, pure_eq_error, and_false, exists_false, or_false, validate_eq_error]

/-! ## References of valid datasets -/

theorem Valid.observations {d : RigDataset α} (h : d.Valid) : ∀ o ∈ d.observations, o.point < d.points.length := by
  intro o ho
  obtain ⟨s, hs, image, himage, ho⟩ := mem_observations.1 ho
  obtain ⟨rig, -, hrig⟩ := h.images s hs
  exact (hrig image himage).point o ho

end RigDataset

end MultiView
