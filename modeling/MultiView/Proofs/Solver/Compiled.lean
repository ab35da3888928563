import MultiView.Solver.Compiled
import MultiView.Proofs.Problem.Evaluation

/-!
# Which problems compile

A problem compiles exactly if it is well formed, its blocks have initial values of their lengths, its curved blocks are
free and unbounded or fully fixed, and its losses have positive finite scales (`Problem.exists_compile_iff`). The start
values are the initial values of its own blocks (`Problem.IsStart`), which fit it.
-/

namespace MultiView

variable {α : Type}

/-- Can the optimizer step along the block's manifold, if the block moves at all? -/
def ParamBlock.Steppable (b : ParamBlock α) : Prop :=
  b.manifold = .euclidean ∨ b.fixed.isAllFixed b.dim = true ∨ b.fixed.isEmpty = true ∧ b.bounds.isNone = true

/-- Are these the values of the problem's own blocks, and no others? -/
def Problem.IsStart (p : Problem α) (initial start : Values α) : Prop :=
  ∀ name, start.get? name = if name ∈ p.params.map (·.name) then initial.get? name else none

theorem ParamBlock.exists_stepManifold {b : ParamBlock α} : (∃ m, b.stepManifold = .ok m) ↔ b.Steppable := by
  unfold stepManifold Steppable
  split
  · next h => simp only [Except.ok.injEq, exists_eq', true_iff]; tauto
  · next h => simp only [bind_eq_ok, exists_unit, require_eq_ok, pure_eq_ok]; grind

/-! ## Blocks -/

theorem ParamBlock.exists_compile {b : ParamBlock α} {initial : Values α} :
    (∃ u, b.compile initial = .ok u) ↔ (∃ x, initial.get? b.name = some x ∧ x.length = b.dim) ∧ b.Steppable := by
  rw [← exists_stepManifold]
  simp only [compile, bind_eq_ok, exists_unit, orFail_eq_ok, require_eq_ok, pure_eq_ok]
  constructor
  · rintro ⟨_, x, hx, hlength, m, hm, -⟩; exact ⟨⟨x, hx, hlength⟩, m, hm⟩
  · rintro ⟨⟨x, hx, hlength⟩, m, hm⟩; exact ⟨_, x, hx, hlength, m, hm, rfl⟩

/-- The start value of a compiled block is its initial value. -/
theorem ParamBlock.compile_value {b : ParamBlock α} {initial : Values α} {u : Unknown α × String × List α}
    (h : b.compile initial = .ok u) : u.2.1 = b.name ∧ initial.get? b.name = some u.2.2 := by
  simp only [compile, bind_eq_ok, exists_unit, orFail_eq_ok, require_eq_ok, pure_eq_ok] at h
  obtain ⟨x, hx, -, m, -, rfl⟩ := h
  exact ⟨rfl, hx⟩

/-- The sizes that a compiled factor is checked against fit it already. -/
theorem ResidualBlock.WellFormed.blockSizes {r : ResidualBlock α} {params : List (ParamBlock α)}
    (h : r.WellFormed params) : r.factor.blockSizes = (r.params.filterMap (params[·]?)).map (·.dim) := by
  rw [← Factor.map_dim_layout]
  have hslots := h.slots
  generalize r.params = ids at hslots
  generalize r.factor.layout = slots at hslots
  induction hslots with
  | nil => rfl
  | cons hid _ ih =>
    obtain ⟨b, hb, hdim, -⟩ := hid
    rw [List.map_cons, ih, List.filterMap_cons_some hb, List.map_cons, hdim]

/-! ## Losses -/

variable [Scalar α]

/-- Is the loss absent, or does it have a positive finite scale? -/
def RobustLoss.Admissible (loss : RobustLoss α) : Prop :=
  loss = .none ∨ ∃ name scale, loss.scale? = some (name, scale) ∧ Scalar.isFinite scale = true ∧ 0 < scale

theorem RobustLoss.check_eq_ok {loss : RobustLoss α} {residual : Nat} {u : Unit} :
    loss.check residual = .ok u ↔ loss.Admissible := by
  cases loss <;> simp [check, Admissible, scale?, Scalar.isPositive]

theorem ResidualBlock.exists_compile {r : ResidualBlock α} {params : List (ParamBlock α)} (h : r.WellFormed params)
    {position : Nat} : (∃ t, r.compile params position = .ok t) ↔ r.loss.Admissible := by
  simp only [compile, bind_eq_ok, exists_unit, RobustLoss.check_eq_ok, mapError_eq_ok, Factor.checkBlocks_eq_ok,
    pure_eq_ok]
  constructor
  · rintro ⟨_, hloss, -⟩; exact hloss
  · intro hloss; exact ⟨_, hloss, h.blockSizes, rfl⟩

/-! ## Problems -/

theorem Problem.exists_compile_iff {p : Problem α} {initial : Values α} :
    (∃ c, p.compile initial = .ok c) ↔
      p.WellFormed ∧ initial.Fits p ∧ (∀ b ∈ p.params, b.Steppable) ∧ ∀ r ∈ p.residuals, r.loss.Admissible := by
  simp only [compile, bind_eq_ok, exists_unit, mapError_eq_ok, validate_eq_ok, pure_eq_ok]
  constructor
  · rintro ⟨c, hp, us, hus, ts, hts, -⟩
    have hblocks := fun b hb => ParamBlock.exists_compile.1 (exists_mapM_eq_ok.1 ⟨us, hus⟩ b hb)
    refine ⟨hp, fun b hb => (hblocks b hb).1, fun b hb => (hblocks b hb).2, fun r hr => ?_⟩
    obtain ⟨i, hi⟩ := List.mem_iff_getElem?.1 hr
    exact (ResidualBlock.exists_compile (hp.residuals r hr)).1
      (exists_mapM_eq_ok.1 ⟨ts, hts⟩ (r, i) (List.mk_mem_zipIdx_iff_getElem?.2 hi))
  · rintro ⟨hp, hfits, hsteps, hlosses⟩
    obtain ⟨us, hus⟩ := exists_mapM_eq_ok.2 fun b hb => ParamBlock.exists_compile.2 ⟨hfits b hb, hsteps b hb⟩
    have hterms : ∀ x ∈ p.residuals.zipIdx, ∃ t, x.1.compile p.params x.2 = .ok t := fun x hx =>
      have hr := List.fst_mem_of_mem_zipIdx hx
      (ResidualBlock.exists_compile (hp.residuals x.1 hr)).2 (hlosses x.1 hr)
    obtain ⟨ts, hts⟩ := exists_mapM_eq_ok.2 hterms
    exact ⟨_, hp, us, hus, ts, hts, rfl⟩

/-- A problem starts from the initial values of its own blocks. -/
theorem Problem.isStart_of_compile {p : Problem α} {initial start : Values α} {c : Compiled α}
    (h : p.compile initial = .ok (c, start)) : p.IsStart initial start := by
  simp only [compile, bind_eq_ok, exists_unit, pure_eq_ok, Prod.mk.injEq] at h
  obtain ⟨-, us, hus, ts, -, -, rfl⟩ := h
  have hblocks := (mapM_eq_ok.1 hus).imp fun _ _ => ParamBlock.compile_value
  have hnames : (us.map (·.2)).map Prod.fst = p.params.map (·.name) := by
    rw [List.map_map, ← List.forall₂_eq_eq_eq, List.forall₂_map_left_iff, List.forall₂_map_right_iff]
    exact (hblocks.imp fun _ _ hb => hb.1).flip
  have hvalues : ∀ e ∈ us.map (·.2), initial.get? e.1 = some e.2 := by
    intro e he
    obtain ⟨u, hu, rfl⟩ := List.mem_map.1 he
    obtain ⟨b, -, hname, hvalue⟩ := exists_of_mem_right hblocks hu
    rwa [hname]
  intro name
  rw [Assoc.get?_ofList_of_forall hvalues, hnames]

end MultiView
