import MultiView.Proofs.Reconstruction.Formulations
import MultiView.Proofs.Rig.Flatten

/-!
# What is refined does not change what is measured

A pose that is held constant is part of the factors of its image, so the options decide which factors, blocks and ids
a problem has. Its residuals at the initial values are the same for all options with the same least track length, and
so is its cost; and if one choice of options has no formulation, no other has one (`formulate_measureAlike`).
-/

namespace MultiView

variable {α : Type} [Scalar α]

/-- Two outcomes that are formulations with the same residuals and cost at their initial values, or the same error. -/
inductive Formulation.MeasureAlike : (a b : Except (RefineError α) (Formulation α)) → Prop
  | formulations {f g : Formulation α} {residuals : List (List α)}
      (hf : f.problem.evaluate f.initial = .ok residuals) (hg : g.problem.evaluate g.initial = .ok residuals)
      (hfcost : f.problem.cost f.initial = .ok (totalCost residuals))
      (hgcost : g.problem.cost g.initial = .ok (totalCost residuals)) : MeasureAlike (.ok f) (.ok g)
  | errors (e : RefineError α) : MeasureAlike (.error e) (.error e)

/-- Outcomes that measure the same residuals, and fail for the want of the same observations only, measure alike. -/
theorem Formulation.Measures.alike {a b : Except (RefineError α) (Formulation α)} {rs : List (List α)}
    (ha : Formulation.Measures a rs) (hb : Formulation.Measures b rs) {loss loss' : RobustLoss α} {asked : Nat}
    {test : Observation α → Bool} {os : List (Observation α)} (hsa : Formulation.SoundIfAny a loss asked test os)
    (hsb : Formulation.SoundIfAny b loss' asked test os) : Formulation.MeasureAlike a b := by
  rcases hsa with ⟨⟨o, ho, hpass⟩, f, rfl, -⟩ | ⟨hnone, rfl⟩
  · rcases hsb with ⟨-, g, rfl, -⟩ | ⟨hnone, -⟩
    · exact .formulations (ha.evaluate f rfl) (hb.evaluate g rfl) (ha.cost rfl) (hb.cost rfl)
    · exact absurd (hnone o ho) (by simp [hpass])
  · rcases hsb with ⟨⟨o, ho, hpass⟩, -⟩ | ⟨-, rfl⟩
    · exact absurd (hnone o ho) (by simp [hpass])
    · exact .errors _

/-- Of the options, only the least track length counts for what is measured. -/
theorem formulate_measureAlike :
    (∀ (cameras : List (Camera α)) (images : List (Image α)) (points : List (Vec3 α)) (d : BundleDataset α)
        (options options' : BundleOptions α), BundleDataset.make cameras images points = .ok d →
      options.minTrackLength = options'.minTrackLength →
      Formulation.MeasureAlike (d.formulate options) (d.formulate options')) ∧
    ∀ (cameras : List (Camera α)) (rigs : List (Rig α)) (snapshots : List (Snapshot α)) (points : List (Vec3 α))
        (d : RigDataset α) (options options' : RigOptions α), RigDataset.make cameras rigs snapshots points = .ok d →
      options.minTrackLength = options'.minTrackLength →
      Formulation.MeasureAlike (d.formulate options) (d.formulate options') := by
  constructor
  · intro cameras images points d options options' hd htrack
    obtain ⟨-, hvalid⟩ := BundleDataset.make_eq_ok.1 hd
    have hmeasures : Formulation.Measures (d.formulate options') _ := BundleDataset.measures hvalid
    have hsound : Formulation.SoundIfAny (d.formulate options') _ _ _ _ := BundleDataset.soundIfAny hvalid
    rw [← htrack] at hmeasures hsound
    exact (BundleDataset.measures hvalid).alike hmeasures (BundleDataset.soundIfAny hvalid) hsound
  · intro cameras rigs snapshots points d options options' hd htrack
    obtain ⟨-, hvalid⟩ := RigDataset.make_eq_ok.1 hd
    have hmeasures : Formulation.Measures (d.formulate options') _ := RigDataset.measures hvalid
    have hsound : Formulation.SoundIfAny (d.formulate options') _ _ _ _ := RigDataset.soundIfAny hvalid
    rw [← htrack] at hmeasures hsound
    exact (RigDataset.measures hvalid).alike hmeasures (RigDataset.soundIfAny hvalid) hsound

/-- With a constant pose in place of a varying one, and with constant poses of cameras on rigs. -/
theorem formulate_measureAlike_examples :
    Formulation.MeasureAlike (BundleDataset.twoImages.formulate .default)
        (BundleDataset.twoImages.formulate ⟨.huber 1, ⟨false, true, false⟩, [0], [0], 2⟩) ∧
      Formulation.MeasureAlike (RigDataset.twoSnapshots.formulate .default)
        (RigDataset.twoSnapshots.formulate ⟨.cauchy 2, .default, false, [1], [], 2⟩) := by
  obtain ⟨hbundle, hrig⟩ := @formulate_measureAlike Float _
  have hmake : BundleDataset.make BundleDataset.twoImages.cameras BundleDataset.twoImages.images
      BundleDataset.twoImages.points = .ok .twoImages := rfl
  have hmake' : RigDataset.make RigDataset.twoSnapshots.cameras RigDataset.twoSnapshots.rigs
      RigDataset.twoSnapshots.snapshots RigDataset.twoSnapshots.points = .ok .twoSnapshots := rfl
  exact ⟨hbundle _ _ _ _ _ _ hmake rfl, hrig _ _ _ _ _ _ _ hmake' rfl⟩

end MultiView
