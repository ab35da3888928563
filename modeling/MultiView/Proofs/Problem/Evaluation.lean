import MultiView.Problem.Evaluation
import MultiView.Proofs.Problem.WellFormed

/-!
# Evaluating a well-formed problem

A factor evaluates exactly at blocks of its sizes (`Factor.evaluate_eq_ok`), which are the lengths of its layout
(`Factor.map_dim_layout`). Hence a well-formed problem has residuals, and a cost, at all values that give each block a
vector of its length (`Problem.exists_evaluate`, `Problem.exists_cost`). Values of other names do not count
(`Problem.evaluate_congr`).
-/

namespace MultiView

variable {α : Type}

/-! ## Shapes -/

/-- The lengths that the layout asks for are those that the residual reads. -/
theorem Factor.map_dim_layout (f : Factor α) : f.layout.map (·.dim) = f.blockSizes := by
  cases f <;> rfl

theorem Factor.checkSizes_eq_ok {block : Nat} {expected got : List Nat} (h : expected.length = got.length) {u : Unit} :
    checkSizes block expected got = .ok u ↔ expected = got := by
  induction expected generalizing block got with
  | nil => obtain rfl := List.length_eq_zero_iff.1 h.symm; simp [checkSizes]
  | cons want expected ih =>
    cases got with
    | nil => simp at h
    | cons given got => simp [checkSizes, ih (Nat.succ.inj h)]

theorem Factor.checkBlocks_eq_ok {f : Factor α} {sizes : List Nat} {u : Unit} :
    f.checkBlocks sizes = .ok u ↔ f.blockSizes = sizes := by
  simp only [checkBlocks, bind_eq_ok, exists_unit, require_eq_ok]
  constructor
  · rintro ⟨hlength, h⟩; exact (checkSizes_eq_ok hlength).1 h
  · rintro rfl; exact ⟨rfl, (checkSizes_eq_ok rfl).2 rfl⟩

theorem Factor.evaluate_eq_ok [Scalar α] {f : Factor α} {blocks : List (List α)} {r : List α} :
    f.evaluate blocks = .ok r ↔ f.blockSizes = blocks.map List.length ∧ f.residual blocks = r := by
  simp [evaluate, checkBlocks_eq_ok]

/-! ## Values that fit -/

/-- Has every block of a problem a value of its length? -/
def Values.Fits (v : Values α) (p : Problem α) : Prop :=
  ∀ b ∈ p.params, ∃ x, v.get? b.name = some x ∧ x.length = b.dim

theorem Problem.lookup_eq_ok {p : Problem α} {v : Values α} {residual id : Nat} {x : List α} :
    p.lookup v residual id = .ok x ↔ ∃ b, p.params[id]? = some b ∧ v.get? b.name = some x := by
  simp [lookup]

/-- The values that a residual block reads have the lengths of its slots. -/
theorem Values.Fits.blocks {v : Values α} {p : Problem α} (hv : v.Fits p) (residual : Nat) {ids : List Nat}
    {slots : List Slot} (h : List.Forall₂ (fun id slot => ∃ b, p.params[id]? = some b ∧ b.Fills slot) ids slots) :
    ∃ blocks, ids.mapM (p.lookup v residual) = .ok blocks ∧ slots.map (·.dim) = blocks.map List.length := by
  induction h with
  | nil => exact ⟨[], rfl, rfl⟩
  | cons hid _ ih =>
    obtain ⟨b, hb, hdim, -⟩ := hid
    obtain ⟨blocks, hblocks, hlengths⟩ := ih
    obtain ⟨x, hx, hlength⟩ := hv b (List.mem_of_getElem? hb)
    refine ⟨x :: blocks, ?_, by simp [hlengths, hlength, hdim]⟩
    rw [mapM_eq_ok] at hblocks ⊢
    exact .cons (Problem.lookup_eq_ok.2 ⟨b, hb, hx⟩) hblocks

variable [Scalar α]

theorem Problem.exists_evaluate {p : Problem α} (hp : p.WellFormed) {v : Values α} (hv : v.Fits p) :
    ∃ rs, p.evaluate v = .ok rs := by
  refine exists_mapM_eq_ok.2 fun (r, i) hr => ?_
  have hwf := hp.residuals r (List.fst_mem_of_mem_zipIdx hr)
  obtain ⟨blocks, hblocks, hlengths⟩ := hv.blocks i hwf.slots
  rw [Factor.map_dim_layout] at hlengths
  refine ⟨r.factor.residual blocks, ?_⟩
  simp only [evaluateBlock, bind_eq_ok, mapError_eq_ok, Factor.evaluate_eq_ok]
  exact ⟨blocks, hblocks, hlengths, rfl⟩

theorem Problem.cost_eq_ok {p : Problem α} {v : Values α} {c : α} :
    p.cost v = .ok c ↔ ∃ rs, p.evaluate v = .ok rs ∧ totalCost rs = c := map_eq_ok

theorem Problem.exists_cost {p : Problem α} (hp : p.WellFormed) {v : Values α} (hv : v.Fits p) :
    ∃ c, p.cost v = .ok c := by
  obtain ⟨rs, hrs⟩ := exists_evaluate hp hv
  exact ⟨_, cost_eq_ok.2 ⟨rs, hrs, rfl⟩⟩

/-- Only the values of the problem's own blocks count. -/
theorem Problem.evaluate_congr {p : Problem α} {v w : Values α} (h : ∀ b ∈ p.params, v.get? b.name = w.get? b.name) :
    p.evaluate v = p.evaluate w := by
  have hlookup : ∀ i, p.lookup v i = p.lookup w i := fun i => funext fun id => by
    unfold lookup
    cases hb : p.params[id]? with
    | none => rfl
    | some b => simp [orFail, h b (List.mem_of_getElem? hb)]
  unfold evaluate evaluateBlock
  simp only [hlookup]

end MultiView
