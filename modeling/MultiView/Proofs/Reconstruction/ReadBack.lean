import MultiView.Proofs.Block
import MultiView.Proofs.Reconstruction.WellFormed
import MultiView.Proofs.Solver.Moves

/-!
# Reading solved values back

The solution of an assembled problem has values for the keys of the problem and for no others, each in the relation that
all calls keep to the key's initial value (`Measurement.rel_block?_of_solve`). What is read back from such values is
solved if it has blocks, and is as it was if it has none (`Values.camera_refined`, `Values.pose_refined`,
`Values.point_refined`); a camera or a pose cannot be read exactly if a focal length is not positive and finite, or the
rotation has no direction (`Values.exists_camera`, `Values.exists_pose`).

An optimizer that moves values solves every sound formulation (`Formulation.Sound.exists_solve_moving`), and the keys
have their moved values then (`Measurement.moved_of_solve`).
-/

namespace MultiView

/-! ## Lists -/

section Lists

variable {ε σ τ : Type} {read : Nat → σ → Except ε τ} {xs : List σ} {ys : List τ}

theorem readEach_eq_ok : readEach read xs = .ok ys ↔ List.Forall₂ (fun x y => read x.2 x.1 = .ok y) xs.zipIdx ys :=
  mapM_eq_ok

theorem exists_readEach : (∃ ys, readEach read xs = .ok ys) ↔ ∀ i x, xs[i]? = some x → ∃ y, read i x = .ok y := by
  rw [readEach, exists_mapM_eq_ok]
  constructor
  · intro h i x hx
    exact h (x, i) (List.mk_mem_zipIdx_iff_getElem?.2 hx)
  · rintro h ⟨x, i⟩ hx
    exact h i x (List.mk_mem_zipIdx_iff_getElem?.1 hx)

/-- What is read of an element stands in a relation to the element and its position. -/
theorem forall₂_of_readEach {R : Nat → σ → τ → Prop} (h : readEach read xs = .ok ys)
    (hread : ∀ i x y, xs[i]? = some x → read i x = .ok y → R i x y) :
    List.Forall₂ (fun x y => R x.2 x.1 y) xs.zipIdx ys := by
  have hmem : List.Forall₂ (fun x y => x ∈ xs.zipIdx ∧ read x.2 x.1 = .ok y) xs.zipIdx ys :=
    (List.forall₂_and_left _ _).2 ⟨fun x hx => hx, readEach_eq_ok.1 h⟩
  exact hmem.imp fun x y hx => hread x.2 x.1 y (List.mk_mem_zipIdx_iff_getElem?.1 hx.1) hx.2

end Lists

variable {κ α : Type}

/-! ## What is read -/

/-- Is a camera that of its solved block if it took part, and as it was if it did not? -/
structure Camera.Refined (v : Values α) (name : String) (used : Prop) (before after : Camera α) : Prop where
  model : after.model = before.model
  solved : used → v.get? name = some after.params
  unused : ¬used → after = before

/-- Is a point that of its solved block if it took part, and as it was if it did not? -/
structure Vec3.Refined (v : Values α) (name : String) (used : Prop) (before after : Vec3 α) : Prop where
  solved : used → v.get? name = some after.toList
  unused : ¬used → after = before

variable [Scalar α]

/-- Is a pose that of its solved blocks, with its rotation scaled to unit length, if it took part, and as it was if it
did not? -/
structure Pose.Refined (v : Values α) (rotation trans : String) (used : Prop) (before after : Pose α) : Prop where
  solved : used → ∃ q : Quat α, v.get? rotation = some q.toList ∧ after.rot = q.normalize ∧
    v.get? trans = some after.trans.toList
  unused : ¬used → after = before

/-- Is a focal length in the solved block of a camera not positive and finite? -/
def Camera.Unreadable (c : Camera α) (v : Values α) (name : String) : Prop :=
  ∃ x, v.get? name = some x ∧ ∃ i ∈ c.model.focalIndices, Scalar.isPositive (x.getD i 0) = false

/-- Is a solved rotation block not that of a quaternion of positive norm with finite components? -/
def Quat.Unreadable (v : Values α) (name : String) : Prop := ∃ q : Quat α, v.get? name = some q.toList ∧ ¬q.IsDirection

theorem Camera.Unreadable.exists_value {c : Camera α} {v : Values α} {name : String} (h : c.Unreadable v name) :
    ∃ x, v.get? name = some x := by
  obtain ⟨x, hx, -⟩ := h
  exact ⟨x, hx⟩

theorem Quat.Unreadable.exists_value {v : Values α} {name : String} (h : Quat.Unreadable v name) :
    ∃ x, v.get? name = some x := by
  obtain ⟨q, hq, -⟩ := h
  exact ⟨q.toList, hq⟩

theorem Camera.Valid.not_unreadable {c : Camera α} (h : c.Valid) {v : Values α} {name : String}
    (hvalue : v.get? name = some c.params) : ¬c.Unreadable v name := by
  rintro ⟨x, hx, i, hi, hnot⟩
  obtain rfl := Option.some.inj (hx.symm.trans hvalue)
  exact absurd (h.focal i hi) (Bool.eq_false_iff.1 hnot)

theorem Quat.IsDirection.not_unreadable {q : Quat α} (h : q.IsDirection) {v : Values α} {name : String}
    (hvalue : v.get? name = some q.toList) : ¬Quat.Unreadable v name := by
  rintro ⟨q', hq', hnot⟩
  obtain rfl := Quat.toList_injective (Option.some.inj (hq'.symm.trans hvalue))
  exact hnot h

namespace Values

variable [BlockKey κ] {v : Values α} {k rotation trans : κ} {used : Prop}

omit [Scalar α] in
/-- Is there a value for a key exactly under a condition, and is it of a length? -/
structure Has (v : Values α) (k : κ) (used : Prop) (length : Nat) : Prop where
  isSome : (v.block? k).isSome = true ↔ used
  length : ∀ x, v.block? k = some x → x.length = length

omit [Scalar α] in
theorem Has.exists_block {length : Nat} (h : v.Has k used length) (hused : used) :
    ∃ x, v.block? k = some x ∧ x.length = length := by
  obtain ⟨x, hx⟩ := Option.isSome_iff_exists.1 (h.isSome.2 hused)
  exact ⟨x, hx, h.length x hx⟩

omit [Scalar α] in
theorem Has.block_eq_none {length : Nat} (h : v.Has k used length) (hunused : ¬used) : v.block? k = none := by
  rw [← Option.not_isSome_iff_eq_none, h.isSome]
  exact hunused

omit [Scalar α] in
theorem Has.used_of_value {length : Nat} (h : v.Has k used length)
    (hvalue : ∃ x, v.get? (BlockKey.name k) = some x) : used := by
  obtain ⟨x, hx⟩ := hvalue
  exact h.isSome.1 (Option.isSome_iff_exists.2 ⟨x, hx⟩)

/-! ### Cameras -/

theorem camera_refined {length : Nat} {c c' : Camera α} (h : v.Has k used length) (hread : v.camera k c = .ok c') :
    Camera.Refined v (BlockKey.name k) used c c' := by
  by_cases hused : used
  · obtain ⟨x, hx, -⟩ := h.exists_block hused
    simp only [camera, hx, mapError_eq_ok, Camera.ofBlock_eq_ok] at hread
    obtain ⟨rfl, -⟩ := hread
    exact ⟨rfl, fun _ => hx, fun hnot => absurd hused hnot⟩
  · simp only [camera, h.block_eq_none hused] at hread
    obtain rfl := Except.ok.inj hread
    exact ⟨rfl, fun hyes => absurd hyes hused, fun _ => rfl⟩

theorem valid_camera {c c' : Camera α} (hc : c.Valid) (hread : v.camera k c = .ok c') : c'.Valid := by
  unfold camera at hread
  split at hread
  · exact (Camera.ofBlock_eq_ok.1 (mapError_eq_ok.1 hread)).2
  · exact Except.ok.inj hread ▸ hc

theorem exists_camera {c : Camera α} (h : v.Has k used c.model.numParams) :
    (∃ c', v.camera k c = .ok c') ↔ ¬c.Unreadable v (BlockKey.name k) := by
  by_cases hused : used
  · obtain ⟨x, hx, hlength⟩ := h.exists_block hused
    have hvalid : Camera.Valid ⟨c.model, x⟩ ↔ ∀ i ∈ c.model.focalIndices, Scalar.isPositive (x.getD i 0) = true :=
      ⟨fun hvalid => hvalid.focal, fun hfocal => ⟨hlength, hfocal⟩⟩
    have hget : v.get? (BlockKey.name k) = some x := hx
    simp only [camera, hx, mapError_eq_ok, Camera.ofBlock_eq_ok, exists_eq_left, hvalid, Camera.Unreadable, hget,
      Option.some.injEq, exists_eq_left', not_exists, not_and, Bool.not_eq_false]
  · have hnone := h.block_eq_none hused
    have hget : v.get? (BlockKey.name k) = none := hnone
    simp [camera, hnone, Camera.Unreadable, hget]

/-! ### Poses -/

theorem pose_refined {p p' : Pose α} (hrotation : v.Has rotation used 4) (htrans : v.Has trans used 3)
    (hread : v.pose rotation trans p = .ok p') :
    Pose.Refined v (BlockKey.name rotation) (BlockKey.name trans) used p p' := by
  by_cases hused : used
  · obtain ⟨x, hx, hxlength⟩ := hrotation.exists_block hused
    obtain ⟨y, hy, hylength⟩ := htrans.exists_block hused
    obtain ⟨q, rfl⟩ := Quat.exists_toList hxlength
    obtain ⟨t, rfl⟩ := Vec3.exists_toList hylength
    simp only [pose, hx, hy, mapError_eq_ok, Pose.ofBlocks_toList] at hread
    obtain ⟨-, rfl⟩ := hread
    exact ⟨fun _ => ⟨q, hx, rfl, hy⟩, fun hnot => absurd hused hnot⟩
  · simp only [pose, hrotation.block_eq_none hused] at hread
    obtain rfl := Except.ok.inj hread
    exact ⟨fun hyes => absurd hyes hused, fun _ => rfl⟩

theorem exists_pose {p : Pose α} (hrotation : v.Has rotation used 4) (htrans : v.Has trans used 3) :
    (∃ p', v.pose rotation trans p = .ok p') ↔ ¬Quat.Unreadable v (BlockKey.name rotation) := by
  by_cases hused : used
  · obtain ⟨x, hx, hxlength⟩ := hrotation.exists_block hused
    obtain ⟨y, hy, hylength⟩ := htrans.exists_block hused
    obtain ⟨q, rfl⟩ := Quat.exists_toList hxlength
    obtain ⟨t, rfl⟩ := Vec3.exists_toList hylength
    have hget : v.get? (BlockKey.name rotation) = some q.toList := hx
    simp only [pose, hx, hy, mapError_eq_ok, Pose.ofBlocks_toList, Quat.Unreadable, hget, Option.some.injEq,
      Quat.toList_injective.eq_iff, exists_eq_left', not_not, exists_and_left, exists_eq, and_true]
  · have hnone := hrotation.block_eq_none hused
    have hget : v.get? (BlockKey.name rotation) = none := hnone
    simp [pose, hnone, Quat.Unreadable, hget]

/-! ### Points -/

theorem exists_point {x : Vec3 α} (h : v.Has k used 3) : ∃ x', v.point k x = .ok x' := by
  by_cases hused : used
  · obtain ⟨y, hy, hlength⟩ := h.exists_block hused
    obtain ⟨t, rfl⟩ := Vec3.exists_toList hlength
    exact ⟨t, by simp only [point, hy, Vec3.ofBlock_toList, mapError_eq_ok]⟩
  · exact ⟨x, by simp only [point, h.block_eq_none hused]⟩

theorem point_refined {x x' : Vec3 α} (h : v.Has k used 3) (hread : v.point k x = .ok x') :
    Vec3.Refined v (BlockKey.name k) used x x' := by
  by_cases hused : used
  · obtain ⟨y, hy, hlength⟩ := h.exists_block hused
    obtain ⟨t, rfl⟩ := Vec3.exists_toList hlength
    simp only [point, hy, Vec3.ofBlock_toList, mapError_eq_ok] at hread
    obtain rfl := Except.ok.inj hread
    exact ⟨fun _ => hy, fun hnot => absurd hused hnot⟩
  · simp only [point, h.block_eq_none hused] at hread
    obtain rfl := Except.ok.inj hread
    exact ⟨fun hyes => absurd hyes hused, fun _ => rfl⟩

end Values

/-! ## Solutions of assembled problems -/

namespace Measurement

variable [DecidableEq κ] [BlockKey κ] [LawfulBlockKey κ] {spec : κ → BlockSpec α} {loss : RobustLoss α} {ks : List κ}
  {ms : List (Measurement κ α)} {optimizer : Optimizer α} {solver : SolveOptions α} {s : Solution α}
  {R : Compiled α → String → List α → List α → Prop}

/-- There are solved values for the keys, and for no others, and they stand in the relation that calls keep. -/
theorem rel_block?_of_solve (hrefl : ∀ compiled name x, R compiled name x x)
    (htrans : ∀ compiled name x y z, R compiled name x y → R compiled name y z → R compiled name x z)
    (hkeeps : (assemble spec loss ks ms).problem.CallsKeep optimizer (assemble spec loss ks ms).initial solver R)
    (hs : (assemble spec loss ks ms).problem.solve optimizer (assemble spec loss ks ms).initial solver = .ok s) :
    ∃ compiled start,
      (assemble spec loss ks ms).problem.compile (assemble spec loss ks ms).initial = .ok (compiled, start) ∧
      (∀ name, (s.params.get? name).isSome = true ↔ name ∈ ks.map BlockKey.name) ∧
      ∀ k ∈ ks, ∃ y, s.params.block? k = some y ∧ R compiled (BlockKey.name k) (spec k).value y := by
  obtain ⟨compiled, start, hcompile, hrelated⟩ := Problem.related_of_solve hrefl htrans hkeeps hs
  have hstart := Problem.isStart_of_compile hcompile
  rw [Problem.IsStart, params_map_name] at hstart
  refine ⟨compiled, start, hcompile, fun name => ?_, fun k hk => ?_⟩
  · have hname := hrelated name
    rw [hstart] at hname
    by_cases hmem : name ∈ ks.map BlockKey.name
    · have hsome : ((assemble spec loss ks ms).initial.get? name).isSome = true := by
        rw [isSome_initial_iff, params_map_name]
        exact hmem
      obtain ⟨x, hx⟩ := Option.isSome_iff_exists.1 hsome
      rw [if_pos hmem, hx] at hname
      cases hy : s.params.get? name with
      | none => rw [hy] at hname; cases hname
      | some y => simp [hmem]
    · rw [if_neg hmem] at hname
      cases hy : s.params.get? name with
      | none => simp [hmem]
      | some y => rw [hy] at hname; cases hname
  · have hname := hrelated (BlockKey.name k)
    rw [hstart, if_pos (List.mem_map_of_mem hk), get?_initial, if_pos hk] at hname
    cases hy : s.params.get? (BlockKey.name k) with
    | none => rw [hy] at hname; cases hname
    | some y =>
      rw [hy] at hname
      cases hname with
      | some hR => exact ⟨y, hy, hR⟩

/-- Solved values are of their keys' lengths. -/
theorem has_of_solve
    (hkeeps : (assemble spec loss ks ms).problem.CallsKeepLengths optimizer (assemble spec loss ks ms).initial solver)
    (hs : (assemble spec loss ks ms).problem.solve optimizer (assemble spec loss ks ms).initial solver = .ok s)
    (k : κ) : s.params.Has k (k ∈ ks) (spec k).value.length := by
  obtain ⟨compiled, start, -, hsome, hvalue⟩ :=
    rel_block?_of_solve (R := fun _ _ x y => y.length = x.length) (fun _ _ _ => rfl)
      (fun _ _ _ _ _ h h' => h'.trans h) hkeeps hs
  have hiff : (s.params.block? k).isSome = true ↔ k ∈ ks := by
    rw [Values.block?, hsome, List.mem_map_of_injective LawfulBlockKey.name_injective]
  refine ⟨hiff, fun x hx => ?_⟩
  obtain ⟨y, hy, hlength⟩ := hvalue k (hiff.1 (by rw [hx]; rfl))
  rw [hx] at hy
  exact Option.some.inj hy ▸ hlength

/-- A name of no key has no solved value. -/
theorem get?_of_solve_of_notMem
    (hkeeps : (assemble spec loss ks ms).problem.CallsKeepLengths optimizer (assemble spec loss ks ms).initial solver)
    (hs : (assemble spec loss ks ms).problem.solve optimizer (assemble spec loss ks ms).initial solver = .ok s)
    {name : String} (h : name ∉ ks.map BlockKey.name) : s.params.get? name = none := by
  obtain ⟨compiled, start, -, hsome, -⟩ := rel_block?_of_solve (R := fun _ _ x y => y.length = x.length)
    (fun _ _ _ => rfl) (fun _ _ _ _ _ h h' => h'.trans h) hkeeps hs
  rwa [← Option.not_isSome_iff_eq_none, hsome]

/-- An optimizer that changes no value leaves the initial values. -/
theorem params_of_solve_unmoved
    (hkeeps : (assemble spec loss ks ms).problem.CallsKeep optimizer (assemble spec loss ks ms).initial solver
      fun _ _ before after => after = before)
    (hs : (assemble spec loss ks ms).problem.solve optimizer (assemble spec loss ks ms).initial solver = .ok s)
    (name : String) : s.params.get? name = (assemble spec loss ks ms).initial.get? name := by
  by_cases hname : name ∈ ks.map BlockKey.name
  · obtain ⟨k, hk, rfl⟩ := List.mem_map.1 hname
    obtain ⟨compiled, start, -, -, hvalue⟩ := rel_block?_of_solve (R := fun _ _ x y => y = x) (fun _ _ _ => rfl)
      (fun _ _ _ _ _ h h' => h'.trans h) hkeeps hs
    obtain ⟨y, hy, rfl⟩ := hvalue k hk
    rw [get?_initial, if_pos hk]
    exact hy
  · rw [get?_initial_of_notMem hname,
      get?_of_solve_of_notMem (hkeeps.imp fun _ _ _ _ h => congrArg List.length h) hs hname]

section Moving

variable {m : Move α}
  (hs : (assemble spec loss ks ms).problem.solve (.moving m) (assemble spec loss ks ms).initial solver = .ok s)

include hs

/-- An optimizer that moves values leaves each key with its initial value, or with that moved. -/
theorem moves_of_solve {k : κ} (hk : k ∈ ks) :
    ∃ y, s.params.block? k = some y ∧ m.Moves (BlockKey.name k) (spec k).value y := by
  obtain ⟨-, -, -, -, hvalue⟩ := rel_block?_of_solve (R := fun _ => m.Moves) (fun _ => Move.Moves.refl)
    (fun _ _ _ _ _ => Move.Moves.trans) (Problem.callsKeep_moving fun _ _ _ _ _ _ => .inr rfl) hs
  exact hvalue k hk

/-- Where the initial cost is not small already, it is moved. -/
theorem moved_of_solve [LawfulBEq α] (hlarge : solver.stopping.minError < s.initialCost) {k : κ} (hk : k ∈ ks) :
    s.params.block? k = some (m.value (BlockKey.name k) (spec k).value) := by
  have hmoved := Problem.get?_of_solve_moving hs hlarge (List.mem_of_getElem? (params_idxOf hk))
  rw [paramBlock, Values.moved, get?_initial, if_pos hk] at hmoved
  exact hmoved

end Moving

theorem block?_of_solve_still
    (hs : (assemble spec loss ks ms).problem.solve .still (assemble spec loss ks ms).initial solver = .ok s) {k : κ}
    (hk : k ∈ ks) : s.params.block? k = some (spec k).value := by
  rw [Values.block?, params_of_solve_unmoved (Problem.callsKeep_still fun _ _ _ => rfl) hs, get?_initial, if_pos hk]

end Measurement

/-! ## Failures -/

/-- Where a problem has a cost, its residuals have a mean. -/
theorem Problem.exists_meanError_of_solve {p : Problem α} {optimizer : Optimizer α} {initial : Values α}
    {solver : SolveOptions α} {s : Solution α} (hs : p.solve optimizer initial solver = .ok s) :
    ∃ e, p.meanError s.params = .ok e := by
  obtain ⟨rs, hrs, -⟩ := cost_eq_ok.1 (cost_of_solve hs)
  exact ⟨meanNorm rs, by rw [meanError, mapError_eq_ok, map_eq_ok]; exact ⟨rs, hrs, rfl⟩⟩

/-- Is there no formulation, or does it not compile, or is a call not answered, or are the solved values unreadable? -/
def RefineFails (formulated : Except (RefineError α) (Formulation α)) (optimizer : Optimizer α)
    (solver : SolveOptions α) (unreadable : Values α → Prop) : Prop :=
  (∃ e, formulated = .error e) ∨ ∃ f, formulated = .ok f ∧
    ((∃ e, f.problem.compile f.initial = .error e) ∨
      (∃ c ∈ f.problem.calls optimizer f.initial solver, ∃ e, c.answer = .error e) ∨
      ∃ s, f.problem.solve optimizer f.initial solver = .ok s ∧ unreadable s.params)

/-- A formulation that is solved and read back, with an optimizer that keeps lengths. -/
theorem exists_error_iff_refineFails {τ : Type} {formulated : Except (RefineError α) (Formulation α)}
    {optimizer : Optimizer α} {solver : SolveOptions α} {unreadable : Values α → Prop}
    {readBack : Formulation α → Solution α → Except (RefineError α) τ}
    (hkeeps : ∀ f, formulated = .ok f → f.problem.CallsKeepLengths optimizer f.initial solver)
    (hread : ∀ f s, formulated = .ok f → f.problem.solve optimizer f.initial solver = .ok s →
      ((∃ e, readBack f s = .error e) ↔ unreadable s.params)) :
    (∃ e, (do
      let f ← formulated
      let s ← (f.problem.solve optimizer f.initial solver).mapError .solve
      readBack f s) = .error e) ↔ RefineFails formulated optimizer solver unreadable := by
  cases formulated with
  | error e => simp [RefineFails]
  | ok f =>
    have hsolve := Problem.exists_error_solve_iff (Problem.CallsKeepLengths.lengths (hkeeps f rfl))
    have hread := hread f
    simp only [RefineFails, reduceCtorEq, exists_false, false_or, Except.ok.injEq, exists_eq_left', ok_bind]
    rw [← or_assoc, ← hsolve]
    cases hs : f.problem.solve optimizer f.initial solver with
    | error e => simp [Except.mapError]
    | ok s => simpa [Except.mapError] using hread s rfl hs

/-- With an optimizer that moves values, a sound formulation is solved unless its loss is inadmissible. -/
theorem Formulation.Sound.exists_solve_moving {f : Formulation α} {loss : RobustLoss α} (h : f.Sound loss)
    (hloss : loss.Admissible) (m : Move α) (solver : SolveOptions α) :
    ∃ s, f.problem.solve (.moving m) f.initial solver = .ok s := by
  by_contra hnone
  rw [← exists_error_iff, Problem.exists_error_solve_iff Problem.callsKeepLengths_moving.lengths] at hnone
  rcases hnone with ⟨e, he⟩ | ⟨c, hc, e, he⟩
  · obtain ⟨compiled, hcompiled⟩ := h.compiles.2 hloss
    rw [he] at hcompiled
    cases hcompiled
  · obtain ⟨compiled, start, -, hanswer⟩ := Problem.exists_compile_of_mem_calls hc
    rw [he] at hanswer
    cases hanswer

/-- With an optimizer that moves values, all that can fail is reading back. -/
theorem Formulation.Sound.not_refineFails_moving {f : Formulation α} {loss : RobustLoss α} (h : f.Sound loss)
    (hloss : loss.Admissible) {m : Move α} {solver : SolveOptions α} {unreadable : Values α → Prop}
    (hread : ∀ s, f.problem.solve (.moving m) f.initial solver = .ok s → ¬unreadable s.params) :
    ¬RefineFails (.ok f) (.moving m) solver unreadable := by
  rintro (⟨e, he⟩ | ⟨f', hf', hfails⟩)
  · cases he
  · cases hf'
    rw [← or_assoc, ← Problem.exists_error_solve_iff Problem.callsKeepLengths_moving.lengths] at hfails
    rcases hfails with ⟨e, he⟩ | ⟨s, hs, hbad⟩
    · obtain ⟨s, hs⟩ := h.exists_solve_moving hloss m solver
      rw [he] at hs
      cases hs
    · exact hread s hs hbad

/-! ## Writing values of keys -/

section Write

variable [BlockKey κ] [LawfulBlockKey κ] {j : Nat} {a : α}

omit [Scalar α] in
/-- The values of other keys stay. -/
theorem Move.value_write_key {k k' : κ} (h : k' ≠ k) (x : List α) :
    (write (BlockKey.name k) j a).value (BlockKey.name k') x = x :=
  value_write_of_ne (fun hname => h (LawfulBlockKey.name_injective hname)) x

/-- Cameras stay valid when a parameter of one of them is written, if this one does. -/
theorem Camera.valid_write {key : Nat → κ} (hkey : Function.Injective key) {cameras : List (Camera α)}
    (hcameras : ∀ c ∈ cameras, c.Valid) {i : Nat} {c : Camera α} (hc : cameras[i]? = some c)
    (hvalid : (⟨c.model, c.params.set j a⟩ : Camera α).Valid) (i' : Nat) (c' : Camera α)
    (hc' : cameras[i']? = some c') :
    Camera.Valid ⟨c'.model, (Move.write (BlockKey.name (key i)) j a).value (BlockKey.name (key i')) c'.params⟩ := by
  by_cases hi : i' = i
  · obtain rfl := hi
    obtain rfl := Option.some.inj (hc'.symm.trans hc)
    rwa [Move.value_write]
  · rw [Move.value_write_key fun h => hi (hkey h)]
    exact hcameras c' (List.mem_of_getElem? hc')

end Write

end MultiView
