import MultiView.Proofs.Bundle.Formulation
import MultiView.Proofs.Rig.Formulation

/-!
# Formulations of valid datasets

Datasets that were accepted are formulated without an index out of range and without a rejected problem: all that can
fail is that no observation is left, and otherwise the formulation is sound (`formulate_soundIfAny`).
-/

namespace MultiView

theorem formulate_soundIfAny {α : Type} [Scalar α] :
    (∀ (cameras : List (Camera α)) (images : List (Image α)) (points : List (Vec3 α)) (d : BundleDataset α)
        (options : BundleOptions α), BundleDataset.make cameras images points = .ok d →
      Formulation.SoundIfAny (d.formulate options) options.loss options.minTrackLength
        (usable options.minTrackLength d.trackLengths) d.observations) ∧
    ∀ (cameras : List (Camera α)) (rigs : List (Rig α)) (snapshots : List (Snapshot α)) (points : List (Vec3 α))
        (d : RigDataset α) (options : RigOptions α), RigDataset.make cameras rigs snapshots points = .ok d →
      Formulation.SoundIfAny (d.formulate options) options.loss options.minTrackLength
        (usable options.minTrackLength d.trackLengths) d.observations := by
  constructor
  · intro cameras images points d options hd
    exact BundleDataset.soundIfAny (BundleDataset.make_eq_ok.1 hd).2
  · intro cameras rigs snapshots points d options hd
    exact RigDataset.soundIfAny (RigDataset.make_eq_ok.1 hd).2

/-- Where an observation is usable, there is a formulation. -/
theorem formulate_soundIfAny_examples :
    (∃ f, BundleDataset.twoImages.formulate .default = .ok f ∧ f.Sound .none) ∧
      ∃ f, RigDataset.twoSnapshots.formulate .default = .ok f ∧ f.Sound .none := by
  obtain ⟨hbundle, hrig⟩ := @formulate_soundIfAny Float _
  constructor
  · have hmake : BundleDataset.make BundleDataset.twoImages.cameras BundleDataset.twoImages.images
        BundleDataset.twoImages.points = .ok .twoImages := rfl
    rcases hbundle _ _ _ _ .default hmake with ⟨-, hsound⟩ | ⟨hnone, -⟩
    · exact hsound
    · exact absurd (hnone ⟨0, ⟨0, 0⟩⟩ (List.mem_of_getElem? (i := 0) rfl)) (by decide +kernel)
  · have hmake : RigDataset.make RigDataset.twoSnapshots.cameras RigDataset.twoSnapshots.rigs
        RigDataset.twoSnapshots.snapshots RigDataset.twoSnapshots.points = .ok .twoSnapshots := rfl
    rcases hrig _ _ _ _ _ .default hmake with ⟨-, hsound⟩ | ⟨hnone, -⟩
    · exact hsound
    · exact absurd (hnone ⟨0, ⟨0, 0⟩⟩ (List.mem_of_getElem? (i := 0) rfl)) (by decide +kernel)

end MultiView
