import MultiView.Proofs.Bundle.Residuals
import MultiView.Proofs.Rig.Formulation

/-!
# Rigs without rigs

Without its rigs, a dataset has one image for each image of a snapshot, with the pose that the rig's pose and the
camera's pose on the rig compose to (`RigDataset.flatten`). Rig adjustment measures what bundle adjustment of these
images does: the initial residuals are the same (`RigDataset.flatten_refines`).
-/

namespace MultiView

open Measurement

namespace RigDataset

variable {α : Type} [Scalar α] {d : RigDataset α} {options : RigOptions α}

/-! ## Flattening -/

/-- An image of a snapshot, from the world: by the camera of the rig that took it. Any camera where there is none. -/
def flatImage (d : RigDataset α) (s : Snapshot α) (image : SnapshotImage α) : Image α :=
  let mounted := (d.mounted? s.rig image.mount).getD ⟨0, .one⟩
  ⟨mounted.camera, mounted.pose.comp s.pose, image.observations⟩

/-- The dataset with an image for each image of a snapshot. -/
def flatten (d : RigDataset α) : BundleDataset α where
  cameras := d.cameras
  images := d.snapshots.flatMap fun s => s.images.map (d.flatImage s)
  points := d.points

theorem flatImage_eq {s : Snapshot α} {image : SnapshotImage α} {m : MountedCamera α}
    (hm : d.mounted? s.rig image.mount = some m) :
    d.flatImage s image = ⟨m.camera, m.pose.comp s.pose, image.observations⟩ := by
  rw [flatImage, hm, Option.getD_some]

theorem mem_images_flatten {image : Image α} :
    image ∈ d.flatten.images ↔ ∃ s ∈ d.snapshots, ∃ i ∈ s.images, d.flatImage s i = image := by
  simp only [flatten, List.mem_flatMap, List.mem_map]

theorem observations_flatten : d.flatten.observations = d.observations := by
  simp only [BundleDataset.observations, flatten, observations, List.flatMap_assoc, List.flatMap_map]
  rfl

theorem trackLengths_flatten : d.flatten.trackLengths = d.trackLengths := by
  rw [BundleDataset.trackLengths, observations_flatten]
  rfl

/-- The flattened dataset is valid, if there is an image at all. -/
theorem Valid.flatten (hd : d.Valid) (himages : d.flatten.images ≠ []) : d.flatten.Valid where
  images := himages
  cameras := hd.cameras
  camera image himage := by
    obtain ⟨s, hs, i, hi, rfl⟩ := mem_images_flatten.1 himage
    obtain ⟨m, hm, hcamera⟩ := hd.exists_mounted hs hi
    rw [flatImage_eq hm]
    exact hcamera
  point image himage o ho := by
    obtain ⟨s, hs, i, hi, rfl⟩ := mem_images_flatten.1 himage
    obtain ⟨rig, -, hrig⟩ := hd.images s hs
    exact (hrig i hi).point o ho

/-! ## Residuals -/

theorem residuals_flatten (asked : Nat) : d.flatten.residuals asked = (d.sightings asked).map fun x =>
    x.2.2.2.residual d.cameras d.points (d.flatImage x.2.1 x.2.2.1).camera (d.flatImage x.2.1 x.2.2.1).pose := by
  rw [BundleDataset.residuals, trackLengths_flatten, sightings, List.map_flatMap]
  simp only [flatten, List.flatMap_assoc, List.flatMap_map, List.map_flatMap, List.map_map]
  rw [← flatMap_zipIdx]
  rfl

/-- What the factor of an observation's measurement makes of its blocks. -/
theorem residual_measurement (hd : d.Valid) {index : Nat} {s : Snapshot α} (hindex : d.snapshots[index]? = some s)
    {image : SnapshotImage α} (himage : image ∈ s.images) {o : Observation α} (ho : o ∈ image.observations) :
    (d.measurement index s image o).factor.residual
        ((d.measurement index s image o).reads.map fun k => (d.blockSpec options k).value) =
      o.residual d.cameras d.points (d.flatImage s image).camera (d.flatImage s image).pose := by
  obtain ⟨m, camera, point, hm, hcamera, -, hpoint⟩ := hd.lookups hindex himage ho
  rw [flatImage_eq hm, Observation.residual_eq hcamera hpoint]
  simp only [measurement, cameraAt_eq hm, Camera.modelAt_eq hcamera, List.map_cons, List.map_nil,
    blockSpec_rigRotation hindex, blockSpec_rigTrans hindex, blockSpec_relRotation hm, blockSpec_relTrans hm,
    blockSpec_point hpoint, blockSpec_camera hcamera]
  rfl

/-- A formulation has the residuals of the flattened dataset at its initial values. -/
theorem measures (hd : d.Valid) :
    Formulation.Measures (d.formulate options) (d.flatten.residuals options.minTrackLength) := by
  rw [formulate_eq hd]
  refine (consistent hd).measures ?_ _
  rw [measurements_eq, List.map_map, residuals_flatten]
  refine List.map_congr_left fun x hx => ?_
  obtain ⟨hindex, himage, ho⟩ := mem_sightings.1 hx
  exact residual_measurement hd hindex himage (List.mem_of_mem_filter ho)

/-- Where a dataset has a rig adjustment, it has a bundle adjustment without the rigs, whatever else the options say,
with as many residual blocks, and with the same residuals and cost at the initial values. -/
theorem flatten_refines {cameras : List (Camera α)} {rigs : List (Rig α)} {snapshots : List (Snapshot α)}
    {points : List (Vec3 α)} (hd : make cameras rigs snapshots points = .ok d) {f : Formulation α}
    (hf : d.formulate options = .ok f) (flat : BundleOptions α)
    (htrack : flat.minTrackLength = options.minTrackLength) :
    (∀ s ∈ snapshots, ∀ image ∈ s.images, ∃ m, d.mounted? s.rig image.mount = some m ∧
        d.flatImage s image = ⟨m.camera, m.pose.comp s.pose, image.observations⟩) ∧
      BundleDataset.make cameras d.flatten.images points = .ok d.flatten ∧
      ∃ g residuals, d.flatten.formulate flat = .ok g ∧
        g.problem.residuals.length = f.problem.residuals.length ∧
        f.problem.evaluate f.initial = .ok residuals ∧ g.problem.evaluate g.initial = .ok residuals ∧
        f.problem.cost f.initial = .ok (totalCost residuals) ∧
        g.problem.cost g.initial = .ok (totalCost residuals) := by
  obtain ⟨rfl, hvalid⟩ := make_eq_ok.1 hd
  have hsome := (measures hvalid).exists_iff.1 ⟨f, hf⟩
  have himages : (flatten ⟨cameras, rigs, snapshots, points⟩).images ≠ [] := by
    intro hnil
    refine hsome ?_
    rw [BundleDataset.residuals, hnil]
    rfl
  have hflat := hvalid.flatten himages
  have hmeasures : Formulation.Measures ((flatten _).formulate flat) _ := BundleDataset.measures hflat
  rw [htrack] at hmeasures
  obtain ⟨g, hg⟩ := hmeasures.exists_iff.2 hsome
  have hrig := (measures hvalid).evaluate f hf
  have hbundle := hmeasures.evaluate g hg
  refine ⟨fun s hs image himage => ?_, BundleDataset.make_eq_ok.2 ⟨rfl, hflat⟩, g, _, hg, ?_, hrig, hbundle,
    Problem.cost_eq_ok.2 ⟨_, hrig, rfl⟩, Problem.cost_eq_ok.2 ⟨_, hbundle, rfl⟩⟩
  · obtain ⟨m, hm, -⟩ := hvalid.exists_mounted hs himage
    exact ⟨m, hm, flatImage_eq hm⟩
  · have hcount := (Problem.evaluate_eq_ok.1 hrig).length_eq
    have hcount' := (Problem.evaluate_eq_ok.1 hbundle).length_eq
    exact hcount'.trans hcount.symm

/-- Two snapshots of a rig are two images. -/
theorem flatten_refines_twoSnapshots : twoSnapshots.flatten.images.length = 2 ∧
    ∃ f g residuals, twoSnapshots.formulate .default = .ok f ∧ twoSnapshots.flatten.formulate .default = .ok g ∧
      f.problem.evaluate f.initial = .ok residuals ∧ g.problem.evaluate g.initial = .ok residuals := by
  have hd : make twoSnapshots.cameras twoSnapshots.rigs twoSnapshots.snapshots twoSnapshots.points =
      .ok twoSnapshots := rfl
  have hsome : (twoSnapshots.formulate .default).toOption.isSome = true := by decide +kernel
  cases hf : twoSnapshots.formulate .default with
  | error e => rw [hf] at hsome; cases hsome
  | ok f =>
    obtain ⟨-, -, g, residuals, hg, -, hrig, hbundle, -⟩ := flatten_refines hd hf .default rfl
    exact ⟨rfl, f, g, residuals, rfl, hg, hrig, hbundle⟩

end RigDataset

end MultiView
