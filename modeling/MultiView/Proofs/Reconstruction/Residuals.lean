import MultiView.Proofs.Problem.Obstacles
import MultiView.Proofs.Reconstruction.WellFormed

/-!
# Residuals of assembled problems

At its initial values, an assembled problem has one residual for each measurement: that of the factor at the contents of
the blocks which the measurement reads (`Consistent.evaluate_initial`). For an observation of a dataset this is
`Observation.residual`, whatever the blocks are; so what a dataset's formulation measures can be said without them
(`Formulation.Measures`).
-/

namespace MultiView

variable {α : Type}

/-- The residual of an observation, by the camera and the pose that its point is seen with; empty if the camera or the
point does not exist. -/
def Observation.residual [Scalar α] (o : Observation α) (cameras : List (Camera α)) (points : List (Vec3 α))
    (camera : Nat) (pose : Pose α) : List α :=
  match cameras[camera]?, points[o.point]? with
  | some c, some p => (Factor.reprojectionError (c.model.lens c.params) (pose.apply p) o.uv).toList
  | _, _ => []

theorem Observation.residual_eq [Scalar α] {cameras : List (Camera α)} {points : List (Vec3 α)} {camera : Nat}
    {pose : Pose α} {o : Observation α} {c : Camera α} {p : Vec3 α} (hc : cameras[camera]? = some c)
    (hp : points[o.point]? = some p) : o.residual cameras points camera pose =
      (Factor.reprojectionError (c.model.lens c.params) (pose.apply p) o.uv).toList := by
  rw [residual, hc, hp]

/-- Does a dataset have a formulation exactly if it has residuals, and are these the formulation's residuals at its
initial values? -/
structure Formulation.Measures [Scalar α] (outcome : Except (RefineError α) (Formulation α)) (rs : List (List α)) :
    Prop where
  exists_iff : (∃ f, outcome = .ok f) ↔ rs ≠ []
  evaluate : ∀ f, outcome = .ok f → f.problem.evaluate f.initial = .ok rs

theorem Formulation.Measures.cost [Scalar α] {outcome : Except (RefineError α) (Formulation α)} {rs : List (List α)}
    (h : Formulation.Measures outcome rs) {f : Formulation α} (hf : outcome = .ok f) :
    f.problem.cost f.initial = .ok (totalCost rs) := Problem.cost_eq_ok.2 ⟨rs, h.evaluate f hf, rfl⟩

namespace Consistent

open Measurement

variable {κ : Type} {spec : κ → BlockSpec α} {loss : RobustLoss α} {ks : List κ} {ms : List (Measurement κ α)}

/-- The contents of the blocks that a measurement reads have the sizes of its factor. -/
theorem blockSizes (h : Consistent spec ks ms) {m : Measurement κ α} (hm : m ∈ ms) :
    m.factor.blockSizes = (m.reads.map fun k => (spec k).value).map List.length := by
  have hlengths : List.Forall₂ Eq (m.reads.map fun k => (spec k).value.length) (m.factor.layout.map (·.dim)) := by
    rw [List.forall₂_map_left_iff, List.forall₂_map_right_iff]
    exact (h.reads m hm).imp fun k slot hk => hk.2.1
  rw [List.forall₂_eq_eq_eq] at hlengths
  rw [← Factor.map_dim_layout, ← hlengths, List.map_map]
  rfl

variable [DecidableEq κ] [BlockKey κ] [LawfulBlockKey κ] [Scalar α]

theorem yields_block (h : Consistent spec ks ms) {m : Measurement κ α} (hm : m ∈ ms) :
    (m.block loss ks).Yields (assemble spec loss ks ms).problem (assemble spec loss ks ms).initial
      (m.factor.residual (m.reads.map fun k => (spec k).value)) := by
  refine ⟨_, ?_, h.blockSizes hm, rfl⟩
  obtain ⟨hmem, -⟩ := (List.forall₂_and_left _ _).1 (h.reads m hm)
  rw [block, ResidualBlock.make, List.forall₂_map_left_iff, List.forall₂_map_right_iff, List.forall₂_same]
  intro k hk
  exact ⟨_, params_idxOf (hmem k hk), by rw [paramBlock, get?_initial, if_pos (hmem k hk)]⟩

/-- The residuals at the initial values, in the order of the measurements. -/
theorem evaluate_initial (h : Consistent spec ks ms) :
    (assemble spec loss ks ms).problem.evaluate (assemble spec loss ks ms).initial =
      .ok (ms.map fun m => m.factor.residual (m.reads.map fun k => (spec k).value)) := by
  rw [Problem.evaluate_eq_ok, assemble, List.forall₂_map_left_iff, List.forall₂_map_right_iff, List.forall₂_same]
  exact fun m hm => h.yields_block hm

/-- A consistent plan measures the residuals of its measurements. -/
theorem measures (h : Consistent spec ks ms) {rs : List (List α)}
    (hrs : (ms.map fun m => m.factor.residual (m.reads.map fun k => (spec k).value)) = rs) (e : RefineError α) :
    Formulation.Measures (if ms = [] then .error e else .ok (assemble spec loss ks ms)) rs := by
  have hnil : rs = [] ↔ ms = [] := by rw [← hrs, List.map_eq_nil_iff]
  by_cases hempty : ms = []
  · rw [if_pos hempty]
    exact ⟨by simp [hnil, hempty], fun _ hf => nomatch hf⟩
  · rw [if_neg hempty]
    refine ⟨by simp [hnil, hempty], fun f hf => ?_⟩
    obtain rfl := Except.ok.inj hf
    rw [h.evaluate_initial, hrs]

end Consistent

end MultiView
