import Mathlib.Data.List.Nodup
import MultiView.Problem.Validation
import MultiView.Proofs.Check

/-!
# Well-formed problems

`Problem.WellFormed` says what a problem has to be, in no order of checks: ids are positions, names differ, blocks are
admissible, and each residual block refers to blocks that fit the slots of its factor. `Problem.validate` accepts
exactly these problems (`Problem.validate_eq_ok`).
-/

namespace MultiView

variable {α : Type}

/-- Does a block have the length and the manifold of a slot? -/
def ParamBlock.Fills (b : ParamBlock α) (slot : Slot) : Prop := b.dim = slot.dim ∧ b.manifold = slot.manifold

/-- A residual of the factor's length, that reads blocks as the factor's layout asks for them. -/
structure ResidualBlock.WellFormed (r : ResidualBlock α) (params : List (ParamBlock α)) : Prop where
  dim : r.dim = r.factor.residualDim
  slots : List.Forall₂ (fun id slot => ∃ b, params[id]? = some b ∧ b.Fills slot) r.params r.factor.layout

/-! ## Residual blocks -/

theorem ParamBlock.checkSlot_eq_ok {params : List (ParamBlock α)} {residual id : Nat} {slot : Slot} {u : Unit} :
    ParamBlock.checkSlot params residual id slot = .ok u ↔ ∃ b, params[id]? = some b ∧ b.Fills slot := by
  simp only [checkSlot, bind_eq_ok, orFail_eq_ok, require_eq_ok, Fills]

theorem ResidualBlock.check_eq_ok {r : ResidualBlock α} {params : List (ParamBlock α)} {position : Nat} {u : Unit} :
    r.check params position = .ok u ↔ r.WellFormed params := by
  simp only [check, List.forM_eq_forM, bind_eq_ok, exists_unit, require_eq_ok, forM_eq_ok, ParamBlock.checkSlot_eq_ok]
  constructor
  · rintro ⟨hdim, hlength, hslots⟩
    exact ⟨hdim, List.forall₂_iff_zip.2 ⟨hlength, fun {id slot} h => hslots (id, slot) h⟩⟩
  · rintro ⟨hdim, hslots⟩
    obtain ⟨hlength, hzip⟩ := List.forall₂_iff_zip.1 hslots
    exact ⟨hdim, hlength, fun _ h => hzip h⟩

/-! ## Parameter blocks and problems -/

variable [Scalar α]

/-- A length that the manifold admits, and fixed positions and bounds for entries of the block only. -/
structure ParamBlock.WellFormed (b : ParamBlock α) : Prop where
  dim : b.manifold.admits b.dim = true
  fixed : ∀ i, b.fixed.isFixed i = true → i < b.dim
  bounds : ∀ bound ∈ b.bounds.getD [], bound.index < b.dim ∧ bound.lower ≤ bound.upper

structure Problem.WellFormed (p : Problem α) : Prop where
  ids : ∀ (i : Nat) (b : ParamBlock α), p.params[i]? = some b → b.id = i
  names : (p.params.map (·.name)).Nodup
  params : ∀ b ∈ p.params, b.WellFormed
  residuals : ∀ r ∈ p.residuals, r.WellFormed p.params

theorem ParamBlock.checkBound_eq_ok {b : ParamBlock α} {bound : Bound α} {u : Unit} :
    b.checkBound bound = .ok u ↔ bound.index < b.dim ∧ bound.lower ≤ bound.upper := by
  simp [checkBound]

theorem ParamBlock.check_eq_ok {b : ParamBlock α} {position : Nat} {taken : List String} {u : Unit} :
    b.check position taken = .ok u ↔ b.id = position ∧ b.name ∉ taken ∧ b.WellFormed := by
  simp only [check, List.forM_eq_forM, bind_eq_ok, exists_unit, require_eq_ok, forM_eq_ok, checkBound_eq_ok]
  constructor
  · rintro ⟨hid, hname, hdim, hfixed, hbounds⟩
    exact ⟨hid, hname, hdim, fun i hi => hfixed i (by simpa [FixedMask.isFixed] using hi), hbounds⟩
  · rintro ⟨hid, hname, h⟩
    exact ⟨hid, hname, h.dim, fun i hi => h.fixed i (by simpa [FixedMask.isFixed] using hi), h.bounds⟩

/-- No element of a list is among those before it. -/
theorem nodup_iff_not_mem_take {τ : Type} {xs : List τ} :
    xs.Nodup ↔ ∀ i x, xs[i]? = some x → x ∉ xs.take i := by
  rw [List.nodup_iff_getElem?_ne_getElem?]
  constructor
  · intro h j x hj hx
    obtain ⟨i, hi, rfl⟩ := List.mem_iff_getElem.1 hx
    rw [List.length_take] at hi
    have hlt : j < xs.length := (List.getElem?_eq_some_iff.1 hj).1
    refine h i j (by omega) hlt ?_
    rw [hj, List.getElem_take, List.getElem?_eq_getElem]
  · intro h i j hij hj heq
    refine h j xs[j] (List.getElem?_eq_getElem hj) (List.mem_iff_getElem?.2 ⟨i, ?_⟩)
    rw [List.getElem?_take_of_lt hij, heq, List.getElem?_eq_getElem hj]

theorem Problem.validate_eq_ok {p : Problem α} {u : Unit} : p.validate = .ok u ↔ p.WellFormed := by
  simp only [validate, bind_eq_ok, exists_unit, checkEach_eq_ok, Nat.zero_add, ParamBlock.check_eq_ok,
    ResidualBlock.check_eq_ok]
  constructor
  · rintro ⟨hparams, hresiduals⟩
    refine ⟨fun i b hb => (hparams i b hb).1, nodup_iff_not_mem_take.2 fun i name hi => ?_, fun b hb => ?_,
      fun r hr => ?_⟩
    · rw [List.getElem?_map, Option.map_eq_some_iff] at hi
      obtain ⟨b, hb, rfl⟩ := hi
      rw [← List.map_take]
      exact (hparams i b hb).2.1
    · obtain ⟨i, hi⟩ := List.mem_iff_getElem?.1 hb
      exact (hparams i b hi).2.2
    · obtain ⟨i, hi⟩ := List.mem_iff_getElem?.1 hr
      exact hresiduals i r hi
  · intro h
    refine ⟨fun i b hb => ⟨h.ids i b hb, ?_, h.params b (List.mem_of_getElem? hb)⟩,
      fun i r hr => h.residuals r (List.mem_of_getElem? hr)⟩
    rw [List.map_take]
    exact nodup_iff_not_mem_take.1 h.names i b.name (by simp [hb])

end MultiView
