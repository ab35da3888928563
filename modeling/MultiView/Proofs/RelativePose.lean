import MultiView.Proofs.Reconstruction.Residuals
import MultiView.RelativePose

/-!
# The problem of two views

Two views with enough correspondences and a guess that moves have a problem, and nothing else can go wrong
(`TwoViews.formulate_eq_ok`). At its initial values, each correspondence has the residual of its factor at the guess
with a unit direction of motion (`TwoViews.evaluate_initial`).
-/

namespace MultiView

open Measurement

instance : LawfulBlockKey RelativePoseKey where
  name_injective j k h := by
    cases j <;> cases k <;> simp [BlockKey.name] at h ⊢

namespace TwoViews

variable {α : Type} {v : TwoViews α}

/-- The correspondences of two views. -/
def pairs (v : TwoViews α) : List (Vec2 α × Vec2 α) := v.points1.zip v.points2

theorem measurements_eq [Scalar α] :
    v.measurements = v.pairs.map fun x => ⟨.relativePose x.1 x.2, [.rotation, .trans]⟩ := by
  rw [measurements, pairs, List.map_zip_eq_zipWith]
  rfl

variable [Scalar α] {options : RelativePoseOptions α}

theorem consistent (rotation : Quat α) (direction : Vec3 α) :
    Consistent (blockSpec rotation direction) [.rotation, .trans] v.measurements where
  nodup := by decide
  specs k _ := by
    cases k with
    | rotation => exact ⟨⟨rfl, by simp [blockSpec]⟩, .inr (.inr rfl)⟩
    | trans => exact ⟨⟨rfl, by simp [blockSpec]⟩, .inr (.inr rfl)⟩
  reads m hm := by
    rw [measurements_eq, List.mem_map] at hm
    obtain ⟨x, -, rfl⟩ := hm
    exact .cons ⟨by decide, rfl, rfl⟩ (.cons ⟨by decide, rfl, rfl⟩ .nil)

theorem formulate_eq_ok {f : Formulation α} : v.formulate options = .ok f ↔
    v.points1.length = v.points2.length ∧ RelativePose.minCorrespondences ≤ v.points1.length ∧
      ∃ direction, v.guess.trans.direction? = some direction ∧
        assemble (blockSpec v.guess.rot direction) options.loss [.rotation, .trans] v.measurements = f := by
  have hvalid : ∀ direction, (assemble (blockSpec v.guess.rot direction) options.loss [.rotation, .trans]
      v.measurements).problem.validate = .ok () := fun direction =>
    Problem.validate_eq_ok.2 (consistent v.guess.rot direction).wellFormed
  simp only [formulate, bind_eq_ok, exists_unit, require_eq_ok, orFail_eq_ok, mapError_eq_ok, hvalid, pure_eq_ok,
    true_and]

/-- The residuals at the initial values, in the order of the correspondences. -/
theorem evaluate_initial (rotation : Quat α) (direction : Vec3 α) (loss : RobustLoss α) :
    (assemble (blockSpec rotation direction) loss [.rotation, .trans] v.measurements).problem.evaluate
        (assemble (blockSpec rotation direction) loss [.rotation, .trans] v.measurements).initial =
      .ok (v.pairs.map fun x => (Factor.relativePose x.1 x.2).residual [rotation.toList, direction.toList]) := by
  rw [(consistent rotation direction).evaluate_initial, measurements_eq, List.map_map]
  rfl

end TwoViews

end MultiView
