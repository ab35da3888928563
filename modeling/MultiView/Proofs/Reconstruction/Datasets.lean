import MultiView.Proofs.Bundle.Formulation
import MultiView.Proofs.Rig.Formulation

/-!
# Acceptance of datasets

A dataset is made of its parts as they are if these are valid, and otherwise the first thing that is wrong with them is
reported (`make_verdict`). The tracks of what was accepted have all observations.
-/

namespace MultiView

theorem make_verdict {α : Type} [Scalar α] :
    (∀ (cameras : List (Camera α)) (images : List (Image α)) (points : List (Vec3 α)),
      (∀ d, BundleDataset.make cameras images points = .ok d ↔ d = ⟨cameras, images, points⟩ ∧ d.Valid) ∧
      (∀ e, BundleDataset.make cameras images points = .error e ↔ BundleDataset.Fault ⟨cameras, images, points⟩ e) ∧
      ∀ d, BundleDataset.make cameras images points = .ok d → d.trackLengths.sum = d.observations.length) ∧
    ∀ (cameras : List (Camera α)) (rigs : List (Rig α)) (snapshots : List (Snapshot α)) (points : List (Vec3 α)),
      (∀ d, RigDataset.make cameras rigs snapshots points = .ok d ↔
        d = ⟨cameras, rigs, snapshots, points⟩ ∧ d.Valid) ∧
      (∀ e, RigDataset.make cameras rigs snapshots points = .error e ↔
        RigDataset.Fault ⟨cameras, rigs, snapshots, points⟩ e) ∧
      ∀ d, RigDataset.make cameras rigs snapshots points = .ok d → d.trackLengths.sum = d.observations.length := by
  constructor
  · intro cameras images points
    refine ⟨fun d => BundleDataset.make_eq_ok, fun e => BundleDataset.make_eq_error, fun d hd => ?_⟩
    obtain ⟨-, hvalid⟩ := BundleDataset.make_eq_ok.1 hd
    exact sum_trackLengths hvalid.observations
  · intro cameras rigs snapshots points
    refine ⟨fun d => RigDataset.make_eq_ok, fun e => RigDataset.make_eq_error, fun d hd => ?_⟩
    obtain ⟨-, hvalid⟩ := RigDataset.make_eq_ok.1 hd
    exact sum_trackLengths hvalid.observations

/-- A rig without cameras is reported even where no snapshot is one of it. -/
theorem make_verdict_examples :
    BundleDataset.twoImages.trackLengths.sum = BundleDataset.twoImages.observations.length ∧
      RigDataset.twoSnapshots.trackLengths.sum = RigDataset.twoSnapshots.observations.length ∧
      RigDataset.Fault { RigDataset.twoSnapshots with rigs := RigDataset.twoSnapshots.rigs ++ [⟨[]⟩] }
        (.emptyRig 1) := by
  obtain ⟨hbundle, hrig⟩ := @make_verdict Float _
  have hmake : BundleDataset.make BundleDataset.twoImages.cameras BundleDataset.twoImages.images
      BundleDataset.twoImages.points = .ok .twoImages := rfl
  have hmake' : RigDataset.make RigDataset.twoSnapshots.cameras RigDataset.twoSnapshots.rigs
      RigDataset.twoSnapshots.snapshots RigDataset.twoSnapshots.points = .ok .twoSnapshots := rfl
  have hempty : RigDataset.make RigDataset.twoSnapshots.cameras (RigDataset.twoSnapshots.rigs ++ [⟨[]⟩])
      RigDataset.twoSnapshots.snapshots RigDataset.twoSnapshots.points = .error (.emptyRig 1) := rfl
  exact ⟨(hbundle _ _ _).2.2 _ hmake, (hrig _ _ _ _).2.2 _ hmake', ((hrig _ _ _ _).2.1 _).1 hempty⟩

end MultiView
