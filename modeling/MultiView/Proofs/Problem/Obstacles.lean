import MultiView.Proofs.Factor.Reads

/-!
# What keeps a problem from being evaluated

A problem need not be valid to be evaluated. It has residuals at values exactly if each residual block refers to blocks
with values that fit its factor (`ResidualBlock.Evaluable`), and otherwise reports the first residual block that does
not, and the first thing in its way (`Problem.Obstacle`). Reads are never past an end: evaluation with checked reads
(`Problem.evaluateStrict`) has the same outcome. All this is `Problem.evaluate_verdict`.
-/

namespace MultiView

variable {α : Type}

/-! ## Sizes of blocks -/

/-- Sizes are compared in order up to the first two that differ. -/
theorem Factor.checkSizes_eq_error {block : Nat} {expected got : List Nat} {e : ShapeError} :
    checkSizes block expected got = .error e ↔
      ∃ (n size given : Nat), expected[n]? = some size ∧ got[n]? = some given ∧
        (∀ m < n, expected[m]? = got[m]?) ∧ size ≠ given ∧ e = .blockSize (block + n) size given := by
  induction expected generalizing block got with
  | nil => simp [checkSizes]
  | cons want expected ih =>
    cases got with
    | nil => simp [checkSizes]
    | cons given got =>
      simp only [checkSizes, bind_eq_error, require_eq_error, require_eq_ok, exists_unit, ih]
      constructor
      · rintro (⟨hne, rfl⟩ | ⟨rfl, n, size, got, hsize, hgot, hbefore, hne, rfl⟩)
        · exact ⟨0, want, given, rfl, rfl, by simp, hne, rfl⟩
        · refine ⟨n + 1, size, got, hsize, hgot, fun m hm => ?_, hne, by rw [Nat.add_right_comm, Nat.add_assoc]⟩
          cases m with
          | zero => rfl
          | succ m => exact hbefore m (Nat.lt_of_succ_lt_succ hm)
      · rintro ⟨n, size, got, hsize, hgot, hbefore, hne, rfl⟩
        cases n with
        | zero =>
          obtain rfl := Option.some.inj hsize
          obtain rfl := Option.some.inj hgot
          exact .inl ⟨hne, rfl⟩
        | succ n =>
          obtain rfl := Option.some.inj (hbefore 0 (Nat.succ_pos n))
          refine .inr ⟨rfl, n, size, got, hsize, hgot, fun m hm => ?_, hne, by rw [Nat.add_right_comm, Nat.add_assoc]⟩
          exact hbefore (m + 1) (Nat.succ_lt_succ hm)

theorem Factor.checkBlocks_eq_error {f : Factor α} {sizes : List Nat} {e : ShapeError} :
    f.checkBlocks sizes = .error e ↔
      f.blockSizes.length ≠ sizes.length ∧ e = .blockCount f.blockSizes.length sizes.length ∨
        f.blockSizes.length = sizes.length ∧ ∃ (n size given : Nat), f.blockSizes[n]? = some size ∧
          sizes[n]? = some given ∧ (∀ m < n, f.blockSizes[m]? = sizes[m]?) ∧ size ≠ given ∧
            e = .blockSize n size given := by
  simp only [checkBlocks, bind_eq_error, require_eq_error, require_eq_ok, exists_unit, checkSizes_eq_error,
    Nat.zero_add, ne_eq]

/-! ## Values of blocks -/

/-- Is this the value of the block of an id? -/
def Problem.Reads (p : Problem α) (v : Values α) (id : Nat) (x : List α) : Prop :=
  ∃ b, p.params[id]? = some b ∧ v.get? b.name = some x

theorem Problem.lookup_eq_ok_iff_reads {p : Problem α} {v : Values α} {residual id : Nat} {x : List α} :
    p.lookup v residual id = .ok x ↔ p.Reads v id x := lookup_eq_ok

theorem Problem.lookup_eq_error {p : Problem α} {v : Values α} {residual id : Nat} {e : EvaluationError} :
    p.lookup v residual id = .error e ↔ p.params.length ≤ id ∧ e = .missingParam residual id ∨
      ∃ b, p.params[id]? = some b ∧ v.get? b.name = none ∧ e = .noValues b.name := by
  simp only [lookup, bind_eq_error, orFail_eq_error, orFail_eq_ok, List.getElem?_eq_none_iff]

/-! ## Residual blocks -/

/-- A residual block that refers to blocks with values of the sizes that its factor reads. -/
def ResidualBlock.Evaluable (r : ResidualBlock α) (p : Problem α) (v : Values α) : Prop :=
  ∃ blocks, List.Forall₂ (p.Reads v) r.params blocks ∧ r.factor.blockSizes = blocks.map List.length

/-- The first thing that is in the way of the residual block at a position: a parameter without a block or without a
value, then the number of the values, then a value of a wrong size. -/
inductive ResidualBlock.Obstacle (r : ResidualBlock α) (p : Problem α) (v : Values α) (position : Nat) :
    EvaluationError → Prop
  | missingParam {n id : Nat} (hn : r.params[n]? = some id)
      (hbefore : ∀ (m : Nat) id', m < n → r.params[m]? = some id' → ∃ x, p.Reads v id' x)
      (hmissing : p.params.length ≤ id) : Obstacle r p v position (.missingParam position id)
  | noValues {n id : Nat} {b : ParamBlock α} (hn : r.params[n]? = some id)
      (hbefore : ∀ (m : Nat) id', m < n → r.params[m]? = some id' → ∃ x, p.Reads v id' x)
      (hb : p.params[id]? = some b) (hvalue : v.get? b.name = none) : Obstacle r p v position (.noValues b.name)
  | blockCount {blocks : List (List α)} (hblocks : List.Forall₂ (p.Reads v) r.params blocks)
      (hcount : r.factor.blockSizes.length ≠ blocks.length) :
      Obstacle r p v position (.shape position (.blockCount r.factor.blockSizes.length blocks.length))
  | blockSize {blocks : List (List α)} (hblocks : List.Forall₂ (p.Reads v) r.params blocks)
      (hcount : r.factor.blockSizes.length = blocks.length) {n size : Nat} {x : List α}
      (hn : r.factor.blockSizes[n]? = some size) (hx : blocks[n]? = some x)
      (hbefore : ∀ m < n, r.factor.blockSizes[m]? = blocks[m]?.map List.length) (hsize : size ≠ x.length) :
      Obstacle r p v position (.shape position (.blockSize n size x.length))

section Evaluation

variable [Scalar α] {p : Problem α} {v : Values α}

theorem Factor.evaluate_eq_error {f : Factor α} {blocks : List (List α)} {e : ShapeError} :
    f.evaluate blocks = .error e ↔ f.checkBlocks (blocks.map List.length) = .error e := by
  simp only [evaluate, bind_eq_error, pure_eq_error, and_false, exists_false, or_false]

/-- The residual of a block at values: that of its factor at the values of the blocks that it refers to. -/
def ResidualBlock.Yields (r : ResidualBlock α) (p : Problem α) (v : Values α) (x : List α) : Prop :=
  ∃ blocks, List.Forall₂ (p.Reads v) r.params blocks ∧ r.factor.blockSizes = blocks.map List.length ∧
    r.factor.residual blocks = x

theorem Problem.evaluateBlock_eq_ok {position : Nat} {r : ResidualBlock α} {x : List α} :
    p.evaluateBlock v position r = .ok x ↔ r.Yields p v x := by
  simp only [evaluateBlock, bind_eq_ok, mapM_eq_ok, mapError_eq_ok, Factor.evaluate_eq_ok, lookup_eq_ok_iff_reads,
    ResidualBlock.Yields]

theorem Problem.exists_evaluateBlock {position : Nat} {r : ResidualBlock α} :
    (∃ x, p.evaluateBlock v position r = .ok x) ↔ r.Evaluable p v := by
  simp only [evaluateBlock_eq_ok, ResidualBlock.Yields, ResidualBlock.Evaluable]
  constructor
  · rintro ⟨_, blocks, hblocks, hsizes, -⟩; exact ⟨blocks, hblocks, hsizes⟩
  · rintro ⟨blocks, hblocks, hsizes⟩; exact ⟨_, blocks, hblocks, hsizes, rfl⟩

theorem Problem.evaluateBlock_eq_error {position : Nat} {r : ResidualBlock α} {e : EvaluationError} :
    p.evaluateBlock v position r = .error e ↔ r.Obstacle p v position e := by
  simp only [evaluateBlock, bind_eq_error, mapError_eq_error, mapM_eq_error, mapM_eq_ok, lookup_eq_ok_iff_reads,
    lookup_eq_error, Factor.evaluate_eq_error, Factor.checkBlocks_eq_error, List.length_map, List.getElem?_map]
  constructor
  · rintro (⟨n, id, hn, hbefore, ⟨hmissing, rfl⟩ | ⟨b, hb, hvalue, rfl⟩⟩ | ⟨blocks, hblocks, _, ⟨hcount, rfl⟩ |
      ⟨hcount, n, size, given, hn, hgiven, hbefore, hne, rfl⟩, rfl⟩)
    · exact .missingParam hn hbefore hmissing
    · exact .noValues hn hbefore hb hvalue
    · exact .blockCount hblocks hcount
    · obtain ⟨x, hx, rfl⟩ := Option.map_eq_some_iff.1 hgiven
      exact .blockSize hblocks hcount hn hx hbefore hne
  · intro h
    cases h with
    | missingParam hn hbefore hmissing => exact .inl ⟨_, _, hn, hbefore, .inl ⟨hmissing, rfl⟩⟩
    | noValues hn hbefore hb hvalue => exact .inl ⟨_, _, hn, hbefore, .inr ⟨_, hb, hvalue, rfl⟩⟩
    | blockCount hblocks hcount => exact .inr ⟨_, hblocks, _, .inl ⟨hcount, rfl⟩, rfl⟩
    | blockSize hblocks hcount hn hx hbefore hsize =>
      exact .inr ⟨_, hblocks, _, .inr ⟨hcount, _, _, _, hn, by rw [hx]; rfl, hbefore, hsize, rfl⟩, rfl⟩

/-! ## Checked reads -/

/-- Why an evaluation with checked reads stops: for an error of its own, or at something that is not there. -/
inductive Stop (ε : Type) where
  | error (e : ε)
  | nothingThere

/-- The residual of the block at a position, with checked reads. -/
def Problem.evaluateBlockStrict (p : Problem α) (v : Values α) (position : Nat) (r : ResidualBlock α) :
    Except (Stop EvaluationError) (List α) := do
  let blocks ← (r.params.mapM (p.lookup v position)).mapError .error
  (r.factor.checkBlocks (blocks.map List.length)).mapError fun e => .error (.shape position e)
  orFail .nothingThere (r.factor.residual? blocks)

/-- The residuals of all blocks, in order, with checked reads. -/
def Problem.evaluateStrict (p : Problem α) (v : Values α) : Except (Stop EvaluationError) (List (List α)) :=
  p.residuals.zipIdx.mapM fun (r, i) => p.evaluateBlockStrict v i r

theorem Problem.evaluateBlockStrict_eq (position : Nat) (r : ResidualBlock α) :
    p.evaluateBlockStrict v position r = (p.evaluateBlock v position r).mapError .error := by
  unfold evaluateBlockStrict evaluateBlock Factor.evaluate
  cases r.params.mapM (p.lookup v position) with
  | error e => rfl
  | ok blocks =>
    cases hsizes : r.factor.checkBlocks (blocks.map List.length) with
    | error e => simp [Except.mapError, hsizes]
    | ok u =>
      have hread := Factor.residual?_eq_some.2 ⟨Factor.checkBlocks_eq_ok.1 hsizes, rfl⟩
      simp [Except.mapError, hsizes, hread, orFail, pure, Except.pure]

/-- Nothing that is read is missing. -/
theorem Problem.evaluateStrict_eq (p : Problem α) (v : Values α) :
    p.evaluateStrict v = (p.evaluate v).mapError .error := by
  simp only [evaluateStrict, evaluateBlockStrict_eq]
  exact mapM_mapError _ Stop.error p.residuals.zipIdx

/-! ## Problems -/

/-- What is in the way of the first residual block that is not evaluable. -/
def Problem.Obstacle (p : Problem α) (v : Values α) (e : EvaluationError) : Prop :=
  ∃ (i : Nat) (r : ResidualBlock α), p.residuals[i]? = some r ∧
    (∀ (j : Nat) r', j < i → p.residuals[j]? = some r' → r'.Evaluable p v) ∧ r.Obstacle p v i e

theorem Problem.exists_evaluate_iff : (∃ rs, p.evaluate v = .ok rs) ↔ ∀ r ∈ p.residuals, r.Evaluable p v := by
  simp only [evaluate, exists_mapM_eq_ok, exists_evaluateBlock]
  constructor
  · intro h r hr
    obtain ⟨i, hi⟩ := List.mem_iff_getElem?.1 hr
    exact h (r, i) (List.mk_mem_zipIdx_iff_getElem?.2 hi)
  · intro h x hx
    exact h x.1 (List.fst_mem_of_mem_zipIdx hx)

theorem Problem.evaluate_eq_ok {rs : List (List α)} :
    p.evaluate v = .ok rs ↔ List.Forall₂ (fun r x => r.Yields p v x) p.residuals rs := by
  simp only [evaluate, mapM_eq_ok, evaluateBlock_eq_ok]
  exact forall₂_zipIdx (R := fun (r : ResidualBlock α) x => r.Yields p v x)

theorem Problem.evaluate_eq_error {e : EvaluationError} : p.evaluate v = .error e ↔ p.Obstacle v e := by
  simp only [evaluate, zipIdx_mapM_eq_error, exists_evaluateBlock, evaluateBlock_eq_error, Obstacle]

/-- Evaluation with checked reads has the same outcome. There are residuals exactly if each residual block is evaluable:
one for each of them in order, of the length that its factor says. Otherwise the error is what is first in the way. A
valid problem has residuals at all values of its blocks' lengths. -/
theorem Problem.evaluate_verdict (p : Problem α) (v : Values α) :
    p.evaluateStrict v = (p.evaluate v).mapError .error ∧
      ((∃ rs, p.evaluate v = .ok rs) ↔ ∀ r ∈ p.residuals, r.Evaluable p v) ∧
      (∀ rs, p.evaluate v = .ok rs →
        List.Forall₂ (fun r x => r.Yields p v x ∧ x.length = r.factor.residualDim) p.residuals rs) ∧
      (∀ e, p.evaluate v = .error e ↔ p.Obstacle v e) ∧
      (p.validate = .ok () → v.Fits p → ∃ rs, p.evaluate v = .ok rs) := by
  refine ⟨evaluateStrict_eq p v, exists_evaluate_iff, fun rs hrs => ?_, fun e => evaluate_eq_error, fun hvalid hv => ?_⟩
  · refine (evaluate_eq_ok.1 hrs).imp fun r x hx => ?_
    obtain ⟨blocks, -, -, rfl⟩ := id hx
    exact ⟨hx, r.factor.length_residual blocks⟩
  · exact exists_evaluate (validate_eq_ok.1 hvalid) hv

/-- A point before a camera, which is the block of a given id. -/
def seenPoint (camera : Nat) : Problem Float :=
  ((Problem.empty.addParam "point" 3 .euclidean .free none).addParam "cam" 3 .euclidean .free none).addResidual
    (.make (.fixedPose .simplePinhole .one ⟨0, 0⟩) [0, camera] .none)

def seenPointValues : Values Float := ⟨[("point", [0, 0, 1]), ("cam", [1, 0, 0])]⟩

/-- With the id of the camera there are residuals; an id that no block has is in the way. -/
theorem Problem.evaluate_verdict_seenPoint :
    (∃ rs, (seenPoint 1).evaluate seenPointValues = .ok rs) ∧
      (seenPoint 7).evaluate seenPointValues = .error (.missingParam 0 7) := by
  obtain ⟨-, -, -, -, hvalid⟩ := evaluate_verdict (seenPoint 1) seenPointValues
  obtain ⟨-, -, -, herror, -⟩ := evaluate_verdict (seenPoint 7) seenPointValues
  constructor
  · refine hvalid rfl fun b hb => ?_
    rcases List.mem_cons.1 hb with rfl | hb
    · exact ⟨[0, 0, 1], rfl, rfl⟩
    · obtain rfl := List.mem_singleton.1 hb
      exact ⟨[1, 0, 0], rfl, rfl⟩
  · refine (herror _).2 ⟨0, _, rfl, by simp, .missingParam (n := 1) rfl (fun m id hm hid => ?_) (by decide)⟩
    obtain rfl := Nat.lt_one_iff.1 hm
    obtain rfl := Option.some.inj hid
    exact ⟨[0, 0, 1], _, rfl, rfl⟩

end Evaluation

end MultiView
