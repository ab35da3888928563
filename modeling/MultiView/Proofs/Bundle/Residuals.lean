import MultiView.Proofs.Bundle.Formulation
import MultiView.Proofs.Reconstruction.Residuals

/-!
# Initial residuals of bundle adjustment

At the initial values of its formulation, a valid dataset has the residuals of its usable observations, in order
(`BundleDataset.measures`). Of the options they depend on the least track length only: a pose that is held constant, and
so is part of the factor, gives the same residual as one that varies.
-/

namespace MultiView

open Measurement

namespace BundleDataset

variable {α : Type} [Scalar α] {d : BundleDataset α} {options : BundleOptions α}

/-- The residuals of the usable observations, in order. -/
def residuals (d : BundleDataset α) (asked : Nat) : List (List α) :=
  d.images.flatMap fun image => (image.observations.filter (usable asked d.trackLengths)).map fun o =>
    o.residual d.cameras d.points image.camera image.pose

theorem residuals_eq (asked : Nat) : d.residuals asked =
    (d.sightings asked).map fun s => s.2.2.residual d.cameras d.points s.2.1.camera s.2.1.pose := by
  rw [residuals, ← flatMap_zipIdx, sightings, List.map_flatMap]
  simp only [List.map_map, Function.comp_def]

/-- What the factor of an observation's measurement makes of its blocks. -/
theorem residual_measurement (hd : d.Valid) {index : Nat} {image : Image α} (hindex : d.images[index]? = some image)
    {o : Observation α} (ho : o ∈ image.observations) :
    (d.measurement options index image o).factor.residual
        ((d.measurement options index image o).reads.map fun k => (d.blockSpec options k).value) =
      o.residual d.cameras d.points image.camera image.pose := by
  obtain ⟨camera, point, hcamera, -, hpoint⟩ := hd.lookups hindex ho
  rw [Observation.residual_eq hcamera hpoint]
  by_cases hconstant : options.constantPoses.contains index = true
  · rw [measurement_of_constant hconstant, Camera.modelAt_eq hcamera]
    simp only [List.map_cons, List.map_nil, blockSpec_point hpoint, blockSpec_camera hcamera]
    rfl
  · rw [measurement_of_variable hconstant, Camera.modelAt_eq hcamera]
    simp only [List.map_cons, List.map_nil, blockSpec_rotation hindex, blockSpec_trans hindex, blockSpec_point hpoint,
      blockSpec_camera hcamera]
    rfl

/-- A formulation has the residuals of the dataset at its initial values. -/
theorem measures (hd : d.Valid) :
    Formulation.Measures (d.formulate options) (d.residuals options.minTrackLength) := by
  rw [formulate_eq hd]
  refine (consistent hd).measures ?_ _
  rw [measurements_eq, List.map_map, residuals_eq]
  refine List.map_congr_left fun s hs => ?_
  obtain ⟨hindex, ho⟩ := mem_sightings.1 hs
  exact residual_measurement hd hindex (List.mem_of_mem_filter ho)

end BundleDataset

end MultiView
