import MultiView.Proofs.Problem.WellFormed

/-!
# Faults of problems

`Problem.Fault` says which check a problem violates first: blocks come in order, each with its id, name, length, fixed
positions from the least on, and bounds; then residual blocks in order, each with its length, the number of its
parameters, and each parameter against its slot. `Problem.validate` accepts exactly the well-formed problems and
otherwise reports this fault (`Problem.validate_verdict`); an interval with a NaN end holds no number
(`Problem.not_nan_of_le`).
-/

namespace MultiView

variable {α : Type}

/-! ## Fixed positions -/

/-- Walking an ascending list, the first position outside of a block is the least one. -/
theorem FixedMask.exists_first_outside {m : FixedMask} {dim i : Nat} :
    (∃ n : Nat, m.indices[n]? = some i ∧ (∀ (k : Nat) j, k < n → m.indices[k]? = some j → j < dim) ∧ ¬i < dim) ↔
      m.isFixed i = true ∧ (∀ j < i, m.isFixed j = true → j < dim) ∧ dim ≤ i := by
  have hmem : ∀ j, m.isFixed j = true ↔ ∃ n : Nat, m.indices[n]? = some j := fun j => by
    rw [isFixed, List.contains_iff_mem, List.mem_iff_getElem?]
  have hlt : ∀ (k n : Nat) j i, k < n → m.indices[k]? = some j → m.indices[n]? = some i → j < i := by
    intro k n j i hkn hj hi
    obtain ⟨hk, rfl⟩ := List.getElem?_eq_some_iff.1 hj
    obtain ⟨hn, rfl⟩ := List.getElem?_eq_some_iff.1 hi
    exact List.pairwise_iff_getElem.1 m.ascending k n hk hn hkn
  constructor
  · rintro ⟨n, hi, hbefore, hout⟩
    refine ⟨(hmem i).2 ⟨n, hi⟩, fun j hj hfixed => ?_, Nat.not_lt.1 hout⟩
    obtain ⟨k, hk⟩ := (hmem j).1 hfixed
    rcases Nat.lt_trichotomy k n with hkn | rfl | hnk
    · exact hbefore k j hkn hk
    · exact absurd (Option.some.inj (hk.symm.trans hi)) (Nat.ne_of_lt hj)
    · exact absurd (hlt n k i j hnk hi hk) (Nat.not_lt.2 (Nat.le_of_lt hj))
  · rintro ⟨hfixed, hsmaller, hout⟩
    obtain ⟨n, hn⟩ := (hmem i).1 hfixed
    exact ⟨n, hn, fun k j hkn hk => hsmaller j (hlt k n j i hkn hk hn) ((hmem j).2 ⟨k, hk⟩), Nat.not_lt.2 hout⟩

/-! ## Parameter blocks -/

/-- Lengths of blocks: any but zero for vectors, four for rotations, three for directions. -/
def Manifold.IsLength : Manifold → Nat → Prop
  | euclidean, dim => 0 < dim
  | so3, dim => dim = 4
  | s2, dim => dim = 3

theorem Manifold.admits_eq_true {m : Manifold} {dim : Nat} : m.admits dim = true ↔ m.IsLength dim := by
  cases m <;> exact decide_eq_true_iff

section Blocks

variable [Scalar α]

/-- Is a bound for an entry of the block, with an interval that holds a number? -/
def ParamBlock.Bounds (b : ParamBlock α) (bound : Bound α) : Prop :=
  bound.index < b.dim ∧ bound.lower ≤ bound.upper

/-- The first thing that is wrong with a block at a position, after blocks of the names `taken`. -/
inductive ParamBlock.Fault (b : ParamBlock α) (position : Nat) (taken : List String) : ValidationError α → Prop
  | id (hid : b.id ≠ position) : Fault b position taken (.idMismatch position b.id)
  | name (hid : b.id = position) (hname : b.name ∈ taken) : Fault b position taken (.duplicateName b.name)
  | dimension (hid : b.id = position) (hname : b.name ∉ taken) (hdim : ¬b.manifold.IsLength b.dim) :
      Fault b position taken (.dimension b.name b.manifold b.dim)
  | fixedIndex (hid : b.id = position) (hname : b.name ∉ taken) (hdim : b.manifold.IsLength b.dim) {i : Nat}
      (hi : b.fixed.isFixed i = true) (hsmaller : ∀ j < i, b.fixed.isFixed j = true → j < b.dim) (hout : b.dim ≤ i) :
      Fault b position taken (.fixedIndex b.name i)
  | boundIndex (hid : b.id = position) (hname : b.name ∉ taken) (hdim : b.manifold.IsLength b.dim)
      (hfixed : ∀ i, b.fixed.isFixed i = true → i < b.dim) {n : Nat} {bound : Bound α}
      (hn : (b.bounds.getD [])[n]? = some bound)
      (hbefore : ∀ (m : Nat) bound', m < n → (b.bounds.getD [])[m]? = some bound' → b.Bounds bound')
      (hout : b.dim ≤ bound.index) : Fault b position taken (.boundIndex b.name bound.index)
  | emptyBound (hid : b.id = position) (hname : b.name ∉ taken) (hdim : b.manifold.IsLength b.dim)
      (hfixed : ∀ i, b.fixed.isFixed i = true → i < b.dim) {n : Nat} {bound : Bound α}
      (hn : (b.bounds.getD [])[n]? = some bound)
      (hbefore : ∀ (m : Nat) bound', m < n → (b.bounds.getD [])[m]? = some bound' → b.Bounds bound')
      (hindex : bound.index < b.dim) (hempty : ¬bound.lower ≤ bound.upper) :
      Fault b position taken (.emptyBound b.name bound.lower bound.upper)

theorem ParamBlock.checkBound_eq_error {b : ParamBlock α} {bound : Bound α} {e : ValidationError α} :
    b.checkBound bound = .error e ↔ b.dim ≤ bound.index ∧ e = .boundIndex b.name bound.index ∨
      bound.index < b.dim ∧ ¬bound.lower ≤ bound.upper ∧ e = .emptyBound b.name bound.lower bound.upper := by
  simp only [checkBound, bind_eq_error, require_eq_error, require_eq_ok, exists_unit, Nat.not_lt]

theorem ParamBlock.check_eq_error {b : ParamBlock α} {position : Nat} {taken : List String} {e : ValidationError α} :
    b.check position taken = .error e ↔ b.Fault position taken e := by
  have hfixed : (∀ i ∈ b.fixed.indices, i < b.dim) ↔ ∀ i, b.fixed.isFixed i = true → i < b.dim := by
    simp only [FixedMask.isFixed, List.contains_iff_mem]
  simp only [check, List.forM_eq_forM, bind_eq_error, require_eq_error, require_eq_ok, exists_unit, forM_eq_ok,
    forM_eq_error, checkBound_eq_ok, checkBound_eq_error, Manifold.admits_eq_true, hfixed, not_not]
  constructor
  · rintro (⟨hid, rfl⟩ | ⟨hid, ⟨hname, rfl⟩ | ⟨hname, ⟨hdim, rfl⟩ | ⟨hdim, ⟨n, i, hi, hbefore, hout, rfl⟩ |
      ⟨hfixed, n, bound, hn, hbefore, ⟨hout, rfl⟩ | ⟨hindex, hempty, rfl⟩⟩⟩⟩⟩)
    · exact .id hid
    · exact .name hid hname
    · exact .dimension hid hname hdim
    · obtain ⟨hi, hsmaller, hout⟩ := FixedMask.exists_first_outside.1 ⟨n, hi, hbefore, hout⟩
      exact .fixedIndex hid hname hdim hi hsmaller hout
    · exact .boundIndex hid hname hdim hfixed hn hbefore hout
    · exact .emptyBound hid hname hdim hfixed hn hbefore hindex hempty
  · intro h
    cases h with
    | id hid => exact .inl ⟨hid, rfl⟩
    | name hid hname => exact .inr ⟨hid, .inl ⟨hname, rfl⟩⟩
    | dimension hid hname hdim => exact .inr ⟨hid, .inr ⟨hname, .inl ⟨hdim, rfl⟩⟩⟩
    | fixedIndex hid hname hdim hi hsmaller hout =>
      obtain ⟨n, hi, hbefore, hout⟩ := FixedMask.exists_first_outside.2 ⟨hi, hsmaller, hout⟩
      exact .inr ⟨hid, .inr ⟨hname, .inr ⟨hdim, .inl ⟨n, _, hi, hbefore, hout, rfl⟩⟩⟩⟩
    | boundIndex hid hname hdim hfixed hn hbefore hout =>
      exact .inr ⟨hid, .inr ⟨hname, .inr ⟨hdim, .inr ⟨hfixed, _, _, hn, hbefore, .inl ⟨hout, rfl⟩⟩⟩⟩⟩
    | emptyBound hid hname hdim hfixed hn hbefore hindex hempty =>
      exact .inr ⟨hid, .inr ⟨hname, .inr ⟨hdim, .inr ⟨hfixed, _, _, hn, hbefore, .inr ⟨hindex, hempty, rfl⟩⟩⟩⟩⟩

end Blocks

/-! ## Residual blocks -/

/-- The first thing that is wrong with the residual block at a position. -/
inductive ResidualBlock.Fault (r : ResidualBlock α) (params : List (ParamBlock α)) (position : Nat) :
    ValidationError α → Prop
  | dim (hdim : r.dim ≠ r.factor.residualDim) :
      Fault r params position (.residualDim position r.dim r.factor.residualDim)
  | count (hdim : r.dim = r.factor.residualDim) (hcount : r.params.length ≠ r.factor.layout.length) :
      Fault r params position (.paramCount position r.factor.layout.length r.params.length)
  | missing (hdim : r.dim = r.factor.residualDim) (hcount : r.params.length = r.factor.layout.length) {n id : Nat}
      (hn : r.params[n]? = some id)
      (hbefore : ∀ (m : Nat) id' slot, m < n → r.params[m]? = some id' → r.factor.layout[m]? = some slot →
        ∃ b, params[id']? = some b ∧ b.Fills slot)
      (hmissing : params.length ≤ id) : Fault r params position (.missingParam position id)
  | mismatch (hdim : r.dim = r.factor.residualDim) (hcount : r.params.length = r.factor.layout.length) {n id : Nat}
      {slot : Slot} {b : ParamBlock α} (hn : r.params[n]? = some id) (hslot : r.factor.layout[n]? = some slot)
      (hbefore : ∀ (m : Nat) id' slot', m < n → r.params[m]? = some id' → r.factor.layout[m]? = some slot' →
        ∃ b, params[id']? = some b ∧ b.Fills slot')
      (hb : params[id]? = some b) (hfills : ¬b.Fills slot) :
      Fault r params position (.slotMismatch position slot b.name b.dim b.manifold)

theorem ParamBlock.checkSlot_eq_error {params : List (ParamBlock α)} {residual id : Nat} {slot : Slot}
    {e : ValidationError α} : ParamBlock.checkSlot params residual id slot = .error e ↔
      params.length ≤ id ∧ e = .missingParam residual id ∨
        ∃ b, params[id]? = some b ∧ ¬b.Fills slot ∧ e = .slotMismatch residual slot b.name b.dim b.manifold := by
  simp only [checkSlot, bind_eq_error, orFail_eq_error, orFail_eq_ok, require_eq_error, List.getElem?_eq_none_iff,
    Fills]

theorem ResidualBlock.check_eq_error {r : ResidualBlock α} {params : List (ParamBlock α)} {position : Nat}
    {e : ValidationError α} : r.check params position = .error e ↔ r.Fault params position e := by
  simp only [check, List.forM_eq_forM, bind_eq_error, require_eq_error, require_eq_ok, exists_unit, forM_eq_error,
    Prod.exists, Prod.forall, List.getElem?_zip_eq_some, ParamBlock.checkSlot_eq_ok, ParamBlock.checkSlot_eq_error,
    and_imp]
  constructor
  · rintro (⟨hdim, rfl⟩ | ⟨hdim, ⟨hcount, rfl⟩ | ⟨hcount, n, id, slot, ⟨hn, hslot⟩, hbefore, ⟨hmissing, rfl⟩ |
      ⟨b, hb, hfills, rfl⟩⟩⟩)
    · exact .dim hdim
    · exact .count hdim hcount
    · exact .missing hdim hcount hn hbefore hmissing
    · exact .mismatch hdim hcount hn hslot hbefore hb hfills
  · intro h
    cases h with
    | dim hdim => exact .inl ⟨hdim, rfl⟩
    | count hdim hcount => exact .inr ⟨hdim, .inl ⟨hcount, rfl⟩⟩
    | missing hdim hcount hn hbefore hmissing =>
      -- there are as many slots as parameters, so the parameter has a slot
      have hslot := List.getElem?_eq_getElem (hcount ▸ (List.getElem?_eq_some_iff.1 hn).1)
      exact .inr ⟨hdim, .inr ⟨hcount, _, _, _, ⟨hn, hslot⟩, hbefore, .inl ⟨hmissing, rfl⟩⟩⟩
    | mismatch hdim hcount hn hslot hbefore hb hfills =>
      exact .inr ⟨hdim, .inr ⟨hcount, _, _, _, ⟨hn, hslot⟩, hbefore, .inr ⟨_, hb, hfills, rfl⟩⟩⟩

/-! ## Problems -/

/-- A check passes exactly if it has no error. -/
theorem check_eq_ok_iff {ε : Type} {check : Except ε Unit} : check = .ok () ↔ ∀ e, check ≠ .error e := by
  cases check <;> simp

namespace Problem

variable [Scalar α]

/-- The names of the blocks before a position. -/
def namesBefore (p : Problem α) (i : Nat) : List String := (p.params.take i).map (·.name)

/-- The fault of the first block that has one, or, if none has, of the first residual block that has one. -/
inductive Fault (p : Problem α) : ValidationError α → Prop
  | block {i : Nat} {b : ParamBlock α} {e : ValidationError α} (hb : p.params[i]? = some b)
      (hbefore : ∀ (j : Nat) b', j < i → p.params[j]? = some b' → ∀ e', ¬b'.Fault j (p.namesBefore j) e')
      (hfault : b.Fault i (p.namesBefore i) e) : Fault p e
  | residual {i : Nat} {r : ResidualBlock α} {e : ValidationError α}
      (hblocks : ∀ (j : Nat) b, p.params[j]? = some b → ∀ e', ¬b.Fault j (p.namesBefore j) e')
      (hr : p.residuals[i]? = some r)
      (hbefore : ∀ (j : Nat) r', j < i → p.residuals[j]? = some r' → ∀ e', ¬r'.Fault p.params j e')
      (hfault : r.Fault p.params i e) : Fault p e

/-- The error of a problem is its fault. -/
theorem validate_eq_error {p : Problem α} {e : ValidationError α} : p.validate = .error e ↔ p.Fault e := by
  simp only [validate, bind_eq_error, checkEach_eq_error, checkEach_eq_ok, exists_unit, Nat.zero_add, check_eq_ok_iff,
    ne_eq, ParamBlock.check_eq_error, ResidualBlock.check_eq_error]
  constructor
  · rintro (⟨i, b, hb, hbefore, hfault⟩ | ⟨hblocks, i, r, hr, hbefore, hfault⟩)
    · exact .block hb hbefore hfault
    · exact .residual hblocks hr hbefore hfault
  · intro h
    cases h with
    | block hb hbefore hfault => exact .inl ⟨_, _, hb, hbefore, hfault⟩
    | residual hblocks hr hbefore hfault => exact .inr ⟨hblocks, _, _, hr, hbefore, hfault⟩

open Float.Model in
/-- Nothing is below or above a NaN. -/
theorem not_nan_of_le {x y : Float} (h : x ≤ y) : x.isNaN = false ∧ y.isNaN = false := by
  have hle : UnpackedFloat.le x.toModel.unpack y.toModel.unpack = true := of_decide_eq_true h
  change x.toModel.unpack.isNaN = false ∧ y.toModel.unpack.isNaN = false
  generalize x.toModel.unpack = a at hle ⊢
  generalize y.toModel.unpack = b at hle ⊢
  -- a NaN on either side makes the comparison false
  cases a <;> cases b <;> first | exact ⟨rfl, rfl⟩ | cases hle

/-- Validation accepts exactly the well-formed problems, whatever their fields hold, and otherwise reports the fault;
the bounds of an accepted problem have no NaN ends. -/
theorem validate_verdict :
    (∀ p : Problem α, (p.validate = .ok () ↔ p.WellFormed) ∧ ∀ e, p.validate = .error e ↔ p.Fault e) ∧
      ∀ p : Problem Float, p.validate = .ok () → ∀ b ∈ p.params, ∀ bound ∈ b.bounds.getD [],
        bound.lower.isNaN = false ∧ bound.upper.isNaN = false := by
  refine ⟨fun p => ⟨validate_eq_ok, fun e => validate_eq_error⟩, fun p hp b hb bound hbound => ?_⟩
  obtain ⟨-, hle⟩ := ((validate_eq_ok.1 hp).params b hb).bounds bound hbound
  exact not_nan_of_le hle

/-- A point and a camera, whose focal length has a lower bound. -/
def boundedFocal (lower : Float) : Problem Float :=
  (((Problem.empty.addParam "point" 3 .euclidean (.all 3) none).addParam "cam" 3 .euclidean .free
    (some [⟨1, 0, 0⟩, ⟨0, lower, 5⟩])).addResidual (.make (.fixedPose .simplePinhole .one ⟨0, 0⟩) [0, 1] .none))

/-- A lower bound is accepted, and a NaN in its place is what is wrong with the problem. -/
theorem validate_verdict_boundedFocal :
    (boundedFocal 2).validate = .ok () ∧ (2 : Float).isNaN = false ∧
      (boundedFocal (0 / 0)).validate = .error (.emptyBound "cam" (0 / 0) 5) := by
  obtain ⟨hverdict, hnan⟩ := @validate_verdict Float _
  have hvalid : (boundedFocal 2).validate = .ok () := by rfl
  refine ⟨hvalid, (hnan _ hvalid _ (List.mem_of_getElem? (i := 1) rfl) ⟨0, 2, 5⟩ (by simp)).1, ?_⟩
  refine ((hverdict (boundedFocal (0 / 0))).2 _).2 (.block (i := 1) rfl (fun j b hj hb e => ?_)
    (ParamBlock.check_eq_error.1 rfl))
  obtain rfl := Nat.lt_one_iff.1 hj
  obtain rfl := Option.some.inj hb
  intro hpoint
  cases ParamBlock.check_eq_error.2 hpoint

end Problem

end MultiView
