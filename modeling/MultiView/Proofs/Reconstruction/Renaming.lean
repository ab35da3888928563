import Mathlib
import MultiView.Proofs.Problem.Cost
import MultiView.Proofs.Reconstruction.Residuals

/-!
# Plans with renamed keys

A plan whose keys and measurements are those of another one, renamed and in any order, has a formulation of the same
size with the same residuals, in some order (`Renames.sameUpToOrder`), and so, in exact arithmetic, of the same cost
(`Formulation.SameUpToOrder.cost`). Lists of which one holds at permuted positions what the other holds are gone
through in some order (`perm_flatMap_zipIdx`).
-/

namespace MultiView

/-! ## Permuted positions -/

section Positions

variable {σ τ : Type} {R : σ → σ → Prop} {xs ys : List σ} {π : Equiv.Perm Nat}

theorem lt_length_iff_of_permuted (h : ∀ i, ys[π i]? = xs[i]?) (i : Nat) : π i < ys.length ↔ i < xs.length := by
  rw [← not_iff_not, not_lt, not_lt, ← List.getElem?_eq_none_iff, ← List.getElem?_eq_none_iff, h]

theorem mem_of_permuted (h : ∀ i, ys[π i]? = xs[i]?) {y : σ} (hy : y ∈ ys) : y ∈ xs := by
  obtain ⟨j, hj⟩ := List.getElem?_of_mem hy
  refine List.mem_of_getElem? (i := π.symm j) ?_
  rw [← h, Equiv.apply_symm_apply, hj]

/-- What is at the permuted position. -/
theorem exists_getElem?_of_rel (h : ∀ i, Option.Rel R xs[i]? ys[π i]?) {i : Nat} {x : σ} (hx : xs[i]? = some x) :
    ∃ y, ys[π i]? = some y ∧ R x y := by
  have hrel := h i
  rw [hx] at hrel
  cases hy : ys[π i]? with
  | none => rw [hy] at hrel; cases hrel
  | some y => rw [hy] at hrel; cases hrel with | some hR => exact ⟨y, rfl, hR⟩

/-- What the position was before it was permuted. -/
theorem exists_getElem?_symm_of_rel (h : ∀ i, Option.Rel R xs[i]? ys[π i]?) {j : Nat} {y : σ} (hy : ys[j]? = some y) :
    ∃ x, xs[π.symm j]? = some x ∧ R x y := by
  have hrel := h (π.symm j)
  rw [Equiv.apply_symm_apply, hy] at hrel
  cases hx : xs[π.symm j]? with
  | none => rw [hx] at hrel; cases hrel
  | some x => rw [hx] at hrel; cases hrel with | some hR => exact ⟨x, rfl, hR⟩

/-- The elements at permuted positions, each with its position, are all elements. -/
theorem perm_zipIdx (h : ∀ i, Option.Rel R xs[i]? ys[π i]?) :
    ys.zipIdx.Perm (xs.zipIdx.map fun x => (ys[π x.2]?.getD x.1, π x.2)) := by
  refine (List.perm_ext_iff_of_nodup ?_ ?_).2 ?_
  · exact (List.nodup_zipIdx_map_snd ys).of_map
  · refine List.Nodup.of_map Prod.snd ?_
    rw [List.map_map]
    change (xs.zipIdx.map (π ∘ Prod.snd)).Nodup
    rw [← List.map_map]
    exact (List.nodup_zipIdx_map_snd xs).map π.injective
  · rintro ⟨y, j⟩
    rw [List.mk_mem_zipIdx_iff_getElem?, List.mem_map]
    constructor
    · intro hy
      obtain ⟨x, hx, -⟩ := exists_getElem?_symm_of_rel h hy
      exact ⟨(x, π.symm j), List.mk_mem_zipIdx_iff_getElem?.2 hx, by simp [hy]⟩
    · rintro ⟨⟨x, i⟩, hx, heq⟩
      obtain ⟨y', hy', -⟩ := exists_getElem?_of_rel h (List.mk_mem_zipIdx_iff_getElem?.1 hx)
      rw [hy', Option.getD_some, Prod.mk.injEq] at heq
      obtain ⟨rfl, rfl⟩ := heq
      exact hy'

/-- What is made of the elements and their positions, one after the other. -/
theorem perm_flatMap_zipIdx (h : ∀ i, Option.Rel R xs[i]? ys[π i]?) {f g : σ × Nat → List τ}
    (hfg : ∀ i x y, xs[i]? = some x → R x y → (g (y, π i)).Perm (f (x, i))) :
    (ys.zipIdx.flatMap g).Perm (xs.zipIdx.flatMap f) := by
  refine ((perm_zipIdx h).flatMap_right g).trans ?_
  rw [List.flatMap_map]
  refine List.Perm.flatMap_left _ ?_
  rintro ⟨x, i⟩ hx
  have hx := List.mk_mem_zipIdx_iff_getElem?.1 hx
  obtain ⟨y, hy, hR⟩ := exists_getElem?_of_rel h hx
  rw [hy]
  exact hfg i x y hx hR

end Positions

/-! ## Formulations -/

variable {κ α : Type}

/-- The number of positions of all blocks that are held constant. -/
def Problem.numFixed (p : Problem α) : Nat := (p.params.map fun b => b.fixed.indices.length).sum

/-- As many blocks, residual blocks and positions held constant, and the same residuals at the initial values, in some
order. -/
structure Formulation.SameUpToOrder [Scalar α] (f g : Formulation α) : Prop where
  params : g.problem.params.length = f.problem.params.length
  terms : g.problem.residuals.length = f.problem.residuals.length
  fixed : g.problem.numFixed = f.problem.numFixed
  residuals : ∃ rs rs', f.problem.evaluate f.initial = .ok rs ∧ g.problem.evaluate g.initial = .ok rs' ∧ rs'.Perm rs

/-- In exact arithmetic the order of residuals does not count for the cost. -/
theorem Formulation.SameUpToOrder.cost {f g : Formulation ℝ} (h : f.SameUpToOrder g) :
    ∃ c, f.problem.cost f.initial = .ok c ∧ g.problem.cost g.initial = .ok c := by
  obtain ⟨rs, rs', hrs, hrs', hperm⟩ := h.residuals
  exact ⟨_, Problem.cost_eq_ok.2 ⟨rs, hrs, rfl⟩, Problem.cost_eq_ok.2 ⟨rs', hrs', totalCost_perm hperm⟩⟩

/-! ## Plans -/

/-- The measurement with its keys renamed. -/
def Measurement.rename (ρ : κ → κ) (m : Measurement κ α) : Measurement κ α := ⟨m.factor, m.reads.map ρ⟩

open Measurement

/-- The keys and the measurements of one plan are those of another one, renamed and in any order, and the blocks have
the contents of those that were renamed. -/
structure Renames (ρ : κ → κ) (spec spec' : κ → BlockSpec α) (ks ks' : List κ) (ms ms' : List (Measurement κ α)) :
    Prop where
  specs : ∀ k, spec' (ρ k) = spec k
  keys : ks'.Perm (ks.map ρ)
  measurements : ms'.Perm (ms.map (rename ρ))

variable {ρ : κ → κ} {spec spec' : κ → BlockSpec α} {loss loss' : RobustLoss α} {ks ks' : List κ}
  {ms ms' : List (Measurement κ α)}

/-- Where the keys are those that measurements read, only the measurements have to be compared. -/
theorem Renames.of_measurements (hρ : Function.Injective ρ) (hspecs : ∀ k, spec' (ρ k) = spec k)
    (hms : ms'.Perm (ms.map (rename ρ))) (hks : ks.Nodup) (hks' : ks'.Nodup)
    (hread : ∀ k, k ∈ ks ↔ ∃ m ∈ ms, k ∈ m.reads) (hread' : ∀ k, k ∈ ks' ↔ ∃ m ∈ ms', k ∈ m.reads) :
    Renames ρ spec spec' ks ks' ms ms' where
  specs := hspecs
  measurements := hms
  keys := by
    refine (List.perm_ext_iff_of_nodup hks' (hks.map hρ)).2 fun k => ?_
    simp only [hread', List.mem_map, hread, hms.mem_iff]
    constructor
    · rintro ⟨_, ⟨m, hm, rfl⟩, hk⟩
      obtain ⟨j, hj, rfl⟩ := List.mem_map.1 hk
      exact ⟨j, ⟨m, hm, hj⟩, rfl⟩
    · rintro ⟨j, ⟨m, hm, hj⟩, rfl⟩
      exact ⟨_, ⟨m, hm, rfl⟩, List.mem_map_of_mem hj⟩

/-- What factors make of the contents of blocks does not depend on their keys. -/
theorem Renames.residuals (h : Renames ρ spec spec' ks ks' ms ms') [Scalar α] :
    (ms'.map fun m => m.factor.residual (m.reads.map fun k => (spec' k).value)).Perm
      (ms.map fun m => m.factor.residual (m.reads.map fun k => (spec k).value)) := by
  refine (h.measurements.map _).trans (List.Perm.of_eq ?_)
  simp only [List.map_map, Function.comp_def, rename, h.specs]

variable [DecidableEq κ] [BlockKey κ]

theorem Measurement.numFixed_assemble : (assemble spec loss ks ms).problem.numFixed =
    (ks.map fun k => (spec k).fixed.indices.length).sum := by
  conv_rhs => rw [← List.zipIdx_map_fst 0 ks, List.map_map]
  rw [Problem.numFixed, assemble, List.map_map]
  rfl

/-- Renamed plans have the same formulation, but for names and order. -/
theorem Renames.sameUpToOrder [LawfulBlockKey κ] [Scalar α] (h : Renames ρ spec spec' ks ks' ms ms')
    (hc : Consistent spec ks ms) (hc' : Consistent spec' ks' ms') :
    (assemble spec loss ks ms).SameUpToOrder (assemble spec' loss' ks' ms') where
  params := by simpa [assemble] using h.keys.length_eq
  terms := by simpa [assemble] using h.measurements.length_eq
  fixed := by
    rw [numFixed_assemble, numFixed_assemble, (h.keys.map _).sum_eq]
    simp only [List.map_map, Function.comp_def, h.specs]
  residuals := ⟨_, _, hc.evaluate_initial, hc'.evaluate_initial, h.residuals⟩

end MultiView
