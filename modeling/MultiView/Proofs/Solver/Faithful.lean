import MultiView.Proofs.Solver.Compiled

/-!
# Compiled problems stand for their problems

Compiling fails with the error of the first check that is violated: validation, then the blocks in order, then the
losses in order (`Problem.compile_eq_error`). The blocks of a well-formed problem have the sizes that its factors read,
so sizes are never what is wrong. Otherwise there is an unknown for each block and a term for each residual block, in
order, which stand for these (`Unknown.StandsFor`, `Term.StandsFor`), and only the initial values of the problem's own
blocks count (`Problem.compile_congr`).
-/

namespace MultiView

variable {α : Type}

theorem FixedMask.isEmpty_iff {m : FixedMask} : m.isEmpty = true ↔ ∀ i, m.isFixed i = false := by
  simp [isEmpty, isFixed, List.isEmpty_iff, List.eq_nil_iff_forall_not_mem]

/-! ## Blocks -/

/-- On a curved manifold, and not held constant as a whole. -/
def ParamBlock.Curved (b : ParamBlock α) : Prop :=
  b.manifold ≠ .euclidean ∧ ¬∀ i < b.dim, b.fixed.isFixed i = true

/-- A block with an initial value of its length, which is free and unbounded if it is curved. -/
structure ParamBlock.Accepted (b : ParamBlock α) (initial : Values α) : Prop where
  value : ∃ x, initial.get? b.name = some x ∧ x.length = b.dim
  curved : b.Curved → (∀ i, b.fixed.isFixed i = false) ∧ b.bounds = none

/-- The first thing that is wrong with a block. -/
inductive ParamBlock.Rejected (b : ParamBlock α) (initial : Values α) : CompileError α → Prop
  | noInitial (hvalue : initial.get? b.name = none) : Rejected b initial (.noInitial b.name b.id)
  | initialDim {x : List α} (hvalue : initial.get? b.name = some x) (hdim : x.length ≠ b.dim) :
      Rejected b initial (.initialDim b.name b.dim x.length)
  | partlyFixed {x : List α} (hvalue : initial.get? b.name = some x) (hdim : x.length = b.dim) (hcurved : b.Curved)
      {i : Nat} (hfixed : b.fixed.isFixed i = true) : Rejected b initial (.partlyFixed b.manifold b.name)
  | bounded {x : List α} (hvalue : initial.get? b.name = some x) (hdim : x.length = b.dim) (hcurved : b.Curved)
      (hfree : ∀ i, b.fixed.isFixed i = false) (hbounds : b.bounds ≠ none) :
      Rejected b initial (.bounded b.manifold b.name)

/-- The unknown of a block, which follows the block's manifold exactly if the block is curved. -/
structure Unknown.StandsFor (u : Unknown α) (b : ParamBlock α) : Prop where
  name : u.name = b.name
  manifold : ∀ m, u.manifold = some m ↔ b.Curved ∧ b.manifold = m
  fixed : u.fixed = b.fixed

theorem ParamBlock.curved_iff {b : ParamBlock α} :
    b.Curved ↔ ¬(b.manifold = .euclidean ∨ b.fixed.isAllFixed b.dim = true) := by
  rw [Curved, FixedMask.isAllFixed_iff, not_or]

theorem ParamBlock.steppable_iff {b : ParamBlock α} :
    b.Steppable ↔ (b.Curved → (∀ i, b.fixed.isFixed i = false) ∧ b.bounds = none) := by
  rw [Steppable, curved_iff, FixedMask.isEmpty_iff, Option.isNone_iff_eq_none]
  tauto

/-- Blocks compile exactly if they are accepted. -/
theorem ParamBlock.exists_compile_iff_accepted {b : ParamBlock α} {initial : Values α} :
    (∃ u, b.compile initial = .ok u) ↔ b.Accepted initial := by
  rw [exists_compile, steppable_iff]
  constructor
  · rintro ⟨hvalue, hcurved⟩; exact ⟨hvalue, hcurved⟩
  · intro h; exact ⟨h.value, h.curved⟩

theorem ParamBlock.stepManifold_eq_error {b : ParamBlock α} {e : CompileError α} :
    b.stepManifold = .error e ↔ b.Curved ∧
      ((∃ i, b.fixed.isFixed i = true) ∧ e = .partlyFixed b.manifold b.name ∨
        (∀ i, b.fixed.isFixed i = false) ∧ b.bounds ≠ none ∧ e = .bounded b.manifold b.name) := by
  rw [stepManifold, curved_iff]
  split
  · next hflat => simp [hflat]
  · next hcurved =>
    simp only [hcurved, not_false_eq_true, true_and, bind_eq_error, require_eq_error, require_eq_ok, exists_unit,
      pure_eq_error, and_false, or_false, FixedMask.isEmpty_iff, not_forall, Bool.not_eq_false,
      Option.isNone_iff_eq_none, ne_eq]

/-- The error of a block is the first thing that is wrong with it. -/
theorem ParamBlock.compile_eq_error {b : ParamBlock α} {initial : Values α} {e : CompileError α} :
    b.compile initial = .error e ↔ b.Rejected initial e := by
  simp only [compile, bind_eq_error, orFail_eq_error, orFail_eq_ok, require_eq_error, require_eq_ok, exists_unit,
    pure_eq_error, stepManifold_eq_error, and_false, exists_false, or_false]
  constructor
  · rintro (⟨hvalue, rfl⟩ | ⟨x, hvalue, ⟨hdim, rfl⟩ | ⟨hdim, hcurved, ⟨⟨i, hi⟩, rfl⟩ | ⟨hfree, hbounds, rfl⟩⟩⟩)
    · exact .noInitial hvalue
    · exact .initialDim hvalue hdim
    · exact .partlyFixed hvalue hdim hcurved hi
    · exact .bounded hvalue hdim hcurved hfree hbounds
  · intro h
    cases h with
    | noInitial hvalue => exact .inl ⟨hvalue, rfl⟩
    | initialDim hvalue hdim => exact .inr ⟨_, hvalue, .inl ⟨hdim, rfl⟩⟩
    | partlyFixed hvalue hdim hcurved hfixed => exact .inr ⟨_, hvalue, .inr ⟨hdim, hcurved, .inl ⟨⟨_, hfixed⟩, rfl⟩⟩⟩
    | bounded hvalue hdim hcurved hfree hbounds =>
      exact .inr ⟨_, hvalue, .inr ⟨hdim, hcurved, .inr ⟨hfree, hbounds, rfl⟩⟩⟩

theorem ParamBlock.stepManifold_eq_some {b : ParamBlock α} {manifold : Option Manifold}
    (h : b.stepManifold = .ok manifold) (m : Manifold) : manifold = some m ↔ b.Curved ∧ b.manifold = m := by
  rw [stepManifold] at h
  rw [curved_iff]
  split at h
  · next hflat =>
    obtain rfl := Except.ok.inj h
    simp [hflat]
  · next hcurved =>
    simp only [bind_eq_ok, exists_unit, pure_eq_ok] at h
    obtain ⟨-, -, rfl⟩ := h
    simp [hcurved]

theorem ParamBlock.standsFor_of_compile {b : ParamBlock α} {initial : Values α} {u : Unknown α × String × List α}
    (h : b.compile initial = .ok u) : u.1.StandsFor b := by
  simp only [compile, bind_eq_ok, exists_unit, pure_eq_ok] at h
  obtain ⟨x, -, -, manifold, hmanifold, rfl⟩ := h
  exact ⟨rfl, stepManifold_eq_some hmanifold, rfl⟩

/-! ## Residual blocks -/

/-- The names of a compiled term are those of the blocks that its slots refer to. -/
theorem forall₂_names {params : List (ParamBlock α)} {ids : List Nat} {slots : List Slot}
    (h : List.Forall₂ (fun id slot => ∃ b, params[id]? = some b ∧ b.Fills slot) ids slots) :
    List.Forall₂ (fun id name => params[id]?.map (·.name) = some name) ids
      ((ids.filterMap (params[·]?)).map (·.name)) := by
  induction h with
  | nil => exact .nil
  | cons hid _ ih =>
    obtain ⟨b, hb, -⟩ := hid
    rw [List.filterMap_cons_some hb]
    exact .cons (by rw [hb]; rfl) ih

/-- The values of the blocks that ids refer to are the values of the names of these blocks. -/
theorem forall₂_get? {p : Problem α} {v : Values α} {position : Nat} {ids : List Nat} {names : List String}
    {blocks : List (List α)} (hnames : List.Forall₂ (fun id name => p.params[id]?.map (·.name) = some name) ids names)
    (hblocks : ids.mapM (p.lookup v position) = .ok blocks) :
    List.Forall₂ (fun name x => v.get? name = some x) names blocks := by
  rw [mapM_eq_ok] at hblocks
  induction hnames generalizing blocks with
  | nil => cases hblocks; exact .nil
  | cons hname _ ih =>
    cases hblocks with
    | cons hblock hrest =>
      obtain ⟨b, hb, hx⟩ := Problem.lookup_eq_ok.1 hblock
      obtain rfl : b.name = _ := by simpa [hb] using hname
      exact .cons hx (ih hrest)

variable [Scalar α]

/-- The term of the residual block at a position. It names the blocks that the residual block reads, in order, and at
all values that fit the problem its factor computes the residual of the block. -/
structure Term.StandsFor (t : Term α) (p : Problem α) (position : Nat) (r : ResidualBlock α) : Prop where
  dim : t.dim = r.dim
  loss : t.loss = r.loss
  unknowns : List.Forall₂ (fun id name => p.params[id]?.map (·.name) = some name) r.params t.unknowns
  evaluates : ∀ v : Values α, v.Fits p → ∃ blocks, List.Forall₂ (fun name x => v.get? name = some x) t.unknowns blocks ∧
    p.evaluateBlock v position r = .ok (t.factor.residual blocks)

theorem RobustLoss.check_eq_error {loss : RobustLoss α} {residual : Nat} {e : CompileError α} :
    loss.check residual = .error e ↔ ∃ name scale, loss.scale? = some (name, scale) ∧
      ¬(Scalar.isFinite scale = true ∧ 0 < scale) ∧ e = .lossScale residual name scale := by
  have hpositive : ∀ scale : α, Scalar.isPositive scale = true ↔ Scalar.isFinite scale = true ∧ 0 < scale := by
    simp [Scalar.isPositive]
  cases loss <;> simp [check, scale?, require_eq_error, hpositive]

/-- What is wrong with a residual block that fits the problem is its loss. -/
theorem ResidualBlock.compile_eq_error {r : ResidualBlock α} {params : List (ParamBlock α)} (h : r.WellFormed params)
    {position : Nat} {e : CompileError α} :
    r.compile params position = .error e ↔ r.loss.check position = .error e := by
  have hsizes : r.factor.checkBlocks ((r.params.filterMap (params[·]?)).map (·.dim)) = .ok () :=
    Factor.checkBlocks_eq_ok.2 h.blockSizes
  simp only [compile, bind_eq_error, mapError_eq_error, hsizes, pure_eq_error, reduceCtorEq, false_and, and_false,
    exists_false, or_false]

theorem ResidualBlock.standsFor_of_compile {p : Problem α} {r : ResidualBlock α} (hr : r.WellFormed p.params)
    {position : Nat} {t : Term α} (h : r.compile p.params position = .ok t) : t.StandsFor p position r := by
  simp only [compile, bind_eq_ok, exists_unit, pure_eq_ok] at h
  obtain ⟨-, -, rfl⟩ := h
  have hnames := forall₂_names hr.slots
  refine ⟨rfl, rfl, hnames, fun v hv => ?_⟩
  obtain ⟨blocks, hblocks, hlengths⟩ := hv.blocks position hr.slots
  rw [Factor.map_dim_layout] at hlengths
  refine ⟨blocks, forall₂_get? hnames hblocks, ?_⟩
  simp only [Problem.evaluateBlock, bind_eq_ok, mapError_eq_ok, Factor.evaluate_eq_ok]
  exact ⟨blocks, hblocks, hlengths, rfl⟩

/-! ## Problems -/

namespace Problem

/-- The first thing that is wrong with a problem and its initial values: the problem is not valid, or a block is not
accepted, or a loss has a scale that is not positive and finite; in this order, and blocks and losses in theirs. -/
inductive Rejected (p : Problem α) (initial : Values α) : CompileError α → Prop
  | invalid {e : ValidationError α} (h : p.validate = .error e) : Rejected p initial (.invalid e)
  | block {i : Nat} {b : ParamBlock α} {e : CompileError α} (hvalid : p.validate = .ok ())
      (hb : p.params[i]? = some b) (hbefore : ∀ j b', j < i → p.params[j]? = some b' → b'.Accepted initial)
      (hrejected : b.Rejected initial e) : Rejected p initial e
  | loss {i : Nat} {r : ResidualBlock α} {name : String} {scale : α} (hvalid : p.validate = .ok ())
      (hblocks : ∀ b ∈ p.params, b.Accepted initial) (hr : p.residuals[i]? = some r)
      (hbefore : ∀ j r', j < i → p.residuals[j]? = some r' → r'.loss.Admissible)
      (hscale : r.loss.scale? = some (name, scale)) (hbad : ¬(Scalar.isFinite scale = true ∧ 0 < scale)) :
      Rejected p initial (.lossScale i name scale)

variable {p : Problem α} {initial : Values α}

theorem exists_compile_iff_accepted : (∃ c, p.compile initial = .ok c) ↔
    p.validate = .ok () ∧ (∀ b ∈ p.params, b.Accepted initial) ∧ ∀ r ∈ p.residuals, r.loss.Admissible := by
  rw [exists_compile_iff, validate_eq_ok]
  simp only [← ParamBlock.exists_compile_iff_accepted, ParamBlock.exists_compile, Values.Fits, forall_and, and_assoc]

/-- What is wrong with a residual block whose parameters fit is its loss. -/
theorem exists_compile_residual (hvalid : p.validate = .ok ()) {i : Nat} {r : ResidualBlock α}
    (hr : p.residuals[i]? = some r) : (∃ t, r.compile p.params i = .ok t) ↔ r.loss.Admissible :=
  ResidualBlock.exists_compile ((validate_eq_ok.1 hvalid).residuals r (List.mem_of_getElem? hr))

/-- The error of a problem is the first thing that is wrong with it. -/
theorem compile_eq_error {e : CompileError α} : p.compile initial = .error e ↔ p.Rejected initial e := by
  simp only [compile, bind_eq_error, zipIdx_mapM_eq_error]
  simp only [mapError_eq_error, mapError_eq_ok, exists_unit, mapM_eq_error, pure_eq_error, and_false, exists_false,
    or_false, ParamBlock.compile_eq_error, ParamBlock.exists_compile_iff_accepted]
  constructor
  · rintro (⟨e', he', rfl⟩ | ⟨hvalid, ⟨i, b, hb, hbefore, hrejected⟩ | ⟨us, hus, i, r, hr, hbefore, he⟩⟩)
    · exact .invalid he'
    · exact .block hvalid hb hbefore hrejected
    · have hblocks := fun b hb => ParamBlock.exists_compile_iff_accepted.1 (exists_mapM_eq_ok.1 ⟨us, hus⟩ b hb)
      have hwf := (validate_eq_ok.1 hvalid).residuals r (List.mem_of_getElem? hr)
      obtain ⟨name, scale, hscale, hbad, rfl⟩ :=
        RobustLoss.check_eq_error.1 ((ResidualBlock.compile_eq_error hwf).1 he)
      exact .loss hvalid hblocks hr (fun j r' hj hr' => (exists_compile_residual hvalid hr').1 (hbefore j r' hj hr'))
        hscale hbad
  · intro h
    cases h with
    | invalid h => exact .inl ⟨_, h, rfl⟩
    | block hvalid hb hbefore hrejected => exact .inr ⟨hvalid, .inl ⟨_, _, hb, hbefore, hrejected⟩⟩
    | @loss i r name scale hvalid hblocks hr hbefore hscale hbad =>
      -- the problem is valid, so nothing but its loss can be wrong with a residual block
      obtain ⟨us, hus⟩ := exists_mapM_eq_ok.2 fun b hb => ParamBlock.exists_compile_iff_accepted.2 (hblocks b hb)
      have hwf := (validate_eq_ok.1 hvalid).residuals r (List.mem_of_getElem? hr)
      have he : r.loss.check i = .error (.lossScale i name scale) :=
        RobustLoss.check_eq_error.2 ⟨name, scale, hscale, hbad, rfl⟩
      exact .inr ⟨hvalid, .inr ⟨us, hus, i, r, hr,
        fun j r' hj hr' => (exists_compile_residual hvalid hr').2 (hbefore j r' hj hr'),
        (ResidualBlock.compile_eq_error hwf).2 he⟩⟩

/-- Initial values of other names do not count. -/
theorem compile_congr {other : Values α} (h : ∀ b ∈ p.params, other.get? b.name = initial.get? b.name) :
    p.compile other = p.compile initial := by
  have hblocks : p.params.mapM (·.compile other) = p.params.mapM (·.compile initial) :=
    mapM_congr fun b hb => by rw [ParamBlock.compile, h b hb, ParamBlock.compile]
  rw [compile, hblocks, compile]

/-- What is compiled stands for the problem, block by block. -/
theorem standsFor_of_compile {compiled : Compiled α} {start : Values α}
    (h : p.compile initial = .ok (compiled, start)) :
    List.Forall₂ (fun b u => u.StandsFor b) p.params compiled.unknowns ∧
      List.Forall₂ (fun x t => t.StandsFor p x.2 x.1) p.residuals.zipIdx compiled.terms := by
  simp only [compile, bind_eq_ok, exists_unit, mapError_eq_ok, validate_eq_ok, pure_eq_ok, Prod.mk.injEq] at h
  obtain ⟨hwf, us, hus, ts, hts, rfl, -⟩ := h
  constructor
  · rw [List.forall₂_map_right_iff]
    exact (mapM_eq_ok.1 hus).imp fun b u => ParamBlock.standsFor_of_compile
  · have hmem : List.Forall₂ (fun x t => x ∈ p.residuals.zipIdx ∧ x.1.compile p.params x.2 = .ok t)
        p.residuals.zipIdx ts := (List.forall₂_and_left _ _).2 ⟨fun x hx => hx, mapM_eq_ok.1 hts⟩
    exact hmem.imp fun x t hx =>
      ResidualBlock.standsFor_of_compile (hwf.residuals x.1 (List.fst_mem_of_mem_zipIdx hx.1)) hx.2

/-- The sizes of the blocks that a factor reads are never what is wrong. -/
theorem not_rejected_shape {position : Nat} {e : ShapeError} : ¬p.Rejected initial (.shape position e) := by
  intro h
  cases h with
  | block _ _ _ hrejected => cases hrejected

/-- Compiling succeeds exactly for valid problems with accepted blocks and admissible losses; it fails with what is
wrong first; values of other names do not count; and what is compiled stands for the problem, unknown by block and term
by residual block. -/
theorem compile_faithful (p : Problem α) (initial : Values α) :
    ((∃ c, p.compile initial = .ok c) ↔ p.validate = .ok () ∧ (∀ b ∈ p.params, b.Accepted initial) ∧
        ∀ r ∈ p.residuals, r.loss.Admissible) ∧
      (∀ e, p.compile initial = .error e ↔ p.Rejected initial e) ∧
      (∀ position e, p.compile initial ≠ .error (.shape position e)) ∧
      (∀ other : Values α, (∀ b ∈ p.params, other.get? b.name = initial.get? b.name) →
        p.compile other = p.compile initial) ∧
      ∀ compiled start, p.compile initial = .ok (compiled, start) →
        (∀ name, start.get? name = if name ∈ p.params.map (·.name) then initial.get? name else none) ∧
        List.Forall₂ (fun b u => u.StandsFor b) p.params compiled.unknowns ∧
        List.Forall₂ (fun x t => t.StandsFor p x.2 x.1) p.residuals.zipIdx compiled.terms := by
  refine ⟨exists_compile_iff_accepted, fun e => compile_eq_error, fun position e h => ?_, fun other => compile_congr,
    fun compiled start h => ⟨isStart_of_compile h, standsFor_of_compile h⟩⟩
  exact not_rejected_shape (compile_eq_error.1 h)

/-- One correspondence under a loss; the direction of motion is held constant. -/
def heldDirection (scale : Float) : Problem Float :=
  ((Problem.empty.addParam "rotation" 4 .so3 .free none).addParam "translation" 3 .s2 (.all 3) none).addResidual
    (.make (.relativePose ⟨0, 0⟩ ⟨0, 1⟩) [0, 1] (.huber scale))

def heldDirectionValues : Values Float :=
  ⟨[("rotation", [0, 0, 0, 1]), ("translation", [1, 0, 0]), ("point", [2, 3, 5])]⟩

/-- The rotation follows its manifold, the direction that is held follows none, and a value that belongs to no block is
left out. With scale zero, the loss is what is wrong. -/
theorem compile_faithful_heldDirection :
    (∃ compiled start, (heldDirection 1).compile heldDirectionValues = .ok (compiled, start) ∧
      start.get? "point" = none ∧ compiled.unknowns.map (·.manifold) = [some .so3, none]) ∧
    (heldDirection 0).compile heldDirectionValues = .error (.lossScale 0 "huber" 0) := by
  obtain ⟨hiff, -, -, -, hok⟩ := compile_faithful (heldDirection 1) heldDirectionValues
  obtain ⟨-, herror, -⟩ := compile_faithful (heldDirection 0) heldDirectionValues
  have hsome : ((heldDirection 1).compile heldDirectionValues).toOption.isSome = true := by decide +kernel
  have hvalid : (heldDirection 0).validate = .ok () := by rfl
  cases hcompile : (heldDirection 1).compile heldDirectionValues with
  | error e => rw [hcompile] at hsome; cases hsome
  | ok c =>
    obtain ⟨compiled, start⟩ := c
    obtain ⟨hstart, hunknowns, -⟩ := hok compiled start hcompile
    obtain ⟨-, hblocks, -⟩ := hiff.1 ⟨_, hcompile⟩
    refine ⟨⟨compiled, start, rfl, (hstart "point").trans (by decide +kernel), ?_⟩, ?_⟩
    · generalize compiled.unknowns = us at hunknowns ⊢
      obtain ⟨rotation, _, hrotation, hrest, rfl⟩ := List.forall₂_cons_left_iff.1 hunknowns
      obtain ⟨direction, _, hdirection, hnil, rfl⟩ := List.forall₂_cons_left_iff.1 hrest
      obtain rfl := List.forall₂_nil_left_iff.1 hnil
      have hfollows : rotation.manifold = some .so3 :=
        (hrotation.manifold .so3).2 ⟨⟨by decide, fun hall => absurd (hall 0 (by decide)) (by simp)⟩, rfl⟩
      have hheld : direction.manifold = none := by
        refine Option.eq_none_iff_forall_ne_some.2 fun m hm => ?_
        obtain ⟨⟨-, hnot⟩, -⟩ := (hdirection.manifold m).1 hm
        exact hnot fun i hi => FixedMask.isFixed_all.2 hi
      rw [List.map_cons, List.map_cons, List.map_nil, hfollows, hheld]
    · exact (herror _).2 (.loss hvalid hblocks (i := 0) rfl (by simp) rfl (by decide +kernel))

end Problem

end MultiView
