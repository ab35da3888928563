import MultiView.Proofs.Solver.Account
import MultiView.Proofs.Solver.Faithful

/-!
# What calls keep, a solve keeps

A relation between values that is reflexive and transitive, and that holds between what an optimizer is given and what
it returns at each call (`Call.Keeps`), holds between the start values and the values of the solution, whatever the
number of runs (`Problem.related_of_solve`). Lengths, the positions that are held constant (`Compiled.Holds`) and the
unit norm of rotations (`Compiled.HoldsUnit`) are such relations.

A solve whose calls keep lengths fails exactly if the problem does not compile or a call is not answered
(`Problem.exists_error_solve_iff`).
-/

namespace MultiView

variable {α : Type}

/-! ## Calls -/

/-- Does every returned value replace one that was given under its name, and stand in a relation to it? -/
def Call.Keeps (R : String → List α → List α → Prop) (c : Call α) : Prop :=
  ∀ solved, c.answer = .ok solved → ∀ e ∈ solved.entries, ∃ x, c.params.get? e.1 = some x ∧ R e.1 x e.2

theorem Call.Keeps.imp {R S : String → List α → List α → Prop} {c : Call α} (h : c.Keeps R)
    (himp : ∀ name x y, R name x y → S name x y) : c.Keeps S := by
  intro solved hsolved e he
  obtain ⟨x, hx, hR⟩ := h solved hsolved e he
  exact ⟨x, hx, himp e.1 x e.2 hR⟩

theorem Call.Keeps.lengths {c : Call α} (h : c.Keeps fun _ x y => y.length = x.length) : c.KeepsLengths := by
  intro solved hsolved e he x hx
  obtain ⟨x', hx', hlength⟩ := h solved hsolved e he
  rw [hx] at hx'
  exact Option.some.inj hx' ▸ hlength

/-- Do all calls of a solve keep a relation? It may refer to the compiled problem. -/
def Problem.CallsKeep [Scalar α] (p : Problem α) (optimizer : Optimizer α) (initial : Values α)
    (options : SolveOptions α) (R : Compiled α → String → List α → List α → Prop) : Prop :=
  ∀ compiled start, p.compile initial = .ok (compiled, start) →
    ∀ c ∈ p.calls optimizer initial options, c.Keeps (R compiled)

/-- Do all calls of a solve keep names and lengths? -/
abbrev Problem.CallsKeepLengths [Scalar α] (p : Problem α) (optimizer : Optimizer α) (initial : Values α)
    (options : SolveOptions α) : Prop :=
  p.CallsKeep optimizer initial options fun _ _ before after => after.length = before.length

/-- Has the value after the length of the value before, and does it agree with it at the positions that are registered
as held constant? -/
structure Compiled.Holds (compiled : Compiled α) (name : String) (before after : List α) : Prop where
  length : after.length = before.length
  fixed : ∀ u ∈ compiled.unknowns, u.name = name → ∀ i, u.fixed.isFixed i = true → after[i]? = before[i]?

/-- Is the value after, moreover, a unit quaternion if the value before is one and follows the rotations? -/
structure Compiled.HoldsUnit [Scalar α] (compiled : Compiled α) (name : String) (before after : List α) : Prop
    extends compiled.Holds name before after where
  unit : ∀ u ∈ compiled.unknowns, u.name = name → u.manifold = some .so3 → (Quat.ofList before).norm = 1 →
    (Quat.ofList after).norm = 1

theorem Compiled.Holds.refl (compiled : Compiled α) (name : String) (x : List α) : compiled.Holds name x x :=
  ⟨rfl, fun _ _ _ _ _ => rfl⟩

theorem Compiled.Holds.trans {compiled : Compiled α} {name : String} {x y z : List α} (h : compiled.Holds name x y)
    (h' : compiled.Holds name y z) : compiled.Holds name x z :=
  ⟨h'.length.trans h.length, fun u hu hname i hi => (h'.fixed u hu hname i hi).trans (h.fixed u hu hname i hi)⟩

theorem Compiled.HoldsUnit.refl [Scalar α] (compiled : Compiled α) (name : String) (x : List α) :
    compiled.HoldsUnit name x x :=
  ⟨.refl compiled name x, fun _ _ _ _ hx => hx⟩

theorem Compiled.HoldsUnit.trans [Scalar α] {compiled : Compiled α} {name : String} {x y z : List α}
    (h : compiled.HoldsUnit name x y) (h' : compiled.HoldsUnit name y z) : compiled.HoldsUnit name x z :=
  ⟨h.toHolds.trans h'.toHolds, fun u hu hname hso3 hx => h'.unit u hu hname hso3 (h.unit u hu hname hso3 hx)⟩

/-! ## Values -/

/-- Are two maps of the same names, and related name by name? -/
def Values.Related (R : String → List α → List α → Prop) (v w : Values α) : Prop :=
  ∀ name, Option.Rel (R name) (v.get? name) (w.get? name)

section Related

variable {R : String → List α → List α → Prop} (hrefl : ∀ name x, R name x x)
  (htrans : ∀ name x y z, R name x y → R name y z → R name x z)

include hrefl in
theorem Values.Related.refl (v : Values α) : Values.Related R v v := by
  intro name
  cases v.get? name with
  | none => exact .none
  | some x => exact .some (hrefl name x)

include htrans in
theorem Values.Related.trans {u v w : Values α} (h : Values.Related R u v) (h' : Values.Related R v w) :
    Values.Related R u w := by
  intro name
  have hname := h name
  have hname' := h' name
  revert hname hname'
  generalize u.get? name = x, v.get? name = y, w.get? name = z
  rintro (hxy | -) hyz
  · obtain ⟨hyz⟩ := hyz
    exact .some (htrans name _ _ _ hxy hyz)
  · cases hyz
    exact .none

include hrefl in
/-- Merging an answer of a call that keeps a relation. -/
theorem Values.Related.merge {c : Call α} (hc : c.Keeps R) {solved : Values α} (hsolved : c.answer = .ok solved) :
    Values.Related R c.params (c.params.merge solved) := by
  intro name
  rw [Assoc.get?_merge]
  cases hy : solved.entries.reverse.lookup name with
  | none => exact Values.Related.refl hrefl c.params name
  | some y =>
    -- the value that counts is one of those that were returned, so it replaces a value that was given
    obtain ⟨es, es', hes, -⟩ := List.lookup_eq_some_iff.1 hy
    have hmem : (name, y) ∈ solved.entries := List.mem_reverse.1 (hes ▸ List.mem_append_right _ List.mem_cons_self)
    obtain ⟨x, hx, hR⟩ := hc solved hsolved _ hmem
    rw [hx]
    exact .some hR

end Related

/-! ## Loops -/

variable [Scalar α]

namespace Restart

variable {p : Problem α} {ask : Values α → α → Except OptimizerError (Values α)} {stopping : Stopping α}
  {R : String → List α → List α → Prop} (hrefl : ∀ name x, R name x x)
  (htrans : ∀ name x y z, R name x y → R name y z → R name x z)

include hrefl in
theorem Step.related {minRelDecrease : α} {s t : Progress α} {solved : Values α} {again : Bool}
    (h : Step p minRelDecrease s solved t again) (hkeeps : Call.Keeps R ⟨s.params, s.radius, .ok solved⟩) :
    Values.Related R s.params t.params := by
  cases h with
  | changed hdiffers hcost => exact .merge hrefl hkeeps rfl
  | shrunk | stuck => exact .refl hrefl s.params

include hrefl htrans in
theorem Runs.related {fuel : Nat} {s : Progress α} {cs : List (Call α)} {r : Except (SolveError α) (Progress α)}
    (h : Runs p ask stopping fuel s cs r) :
    (∀ c ∈ cs, c.Keeps R) → ∀ t, r = .ok t → Values.Related R s.params t.params := by
  induction h with
  | exhausted | small => rintro - t ⟨⟩; exact .refl hrefl _
  | unanswered | broken => rintro - t ⟨⟩
  | last hcost hask h => rintro hkeeps t ⟨⟩; exact h.related hrefl (hkeeps _ List.mem_cons_self)
  | next hcost hask h hrest ih =>
    intro hkeeps t ht
    have hfirst := h.related hrefl (hkeeps _ List.mem_cons_self)
    exact hfirst.trans htrans (ih (fun c hc => hkeeps c (List.mem_cons_of_mem _ hc)) t ht)

/-- Calls are answered by the optimizer. -/
theorem Runs.answer {fuel : Nat} {s : Progress α} {cs : List (Call α)}
    {r : Except (SolveError α) (Progress α)} (h : Runs p ask stopping fuel s cs r) :
    ∀ c ∈ cs, c.answer = ask c.params c.radius := by
  induction h with
  | exhausted | small => simp
  | unanswered hcost hask | broken hcost hask | last hcost hask =>
    intro c hc
    rw [List.mem_singleton.1 hc]
    exact hask.symm
  | next hcost hask h hrest ih =>
    intro c hc
    rcases List.mem_cons.1 hc with rfl | hc
    · exact hask.symm
    · exact ih c hc

/-- A loop that comes to its end was answered at every call. -/
theorem Runs.answered {fuel : Nat} {s : Progress α} {cs : List (Call α)} {r : Except (SolveError α) (Progress α)}
    (h : Runs p ask stopping fuel s cs r) : ∀ t, r = .ok t → ∀ c ∈ cs, ∃ solved, c.answer = .ok solved := by
  induction h with
  | exhausted | small => simp
  | unanswered | broken => rintro t ⟨⟩
  | last => rintro t - c hc; exact ⟨_, by rw [List.mem_singleton.1 hc]⟩
  | next hcost hask h hrest ih =>
    rintro t ht c hc
    rcases List.mem_cons.1 hc with rfl | hc
    · exact ⟨_, rfl⟩
    · exact ih t ht c hc

end Restart

/-! ## Solves -/

namespace Problem

variable {p : Problem α} {optimizer : Optimizer α} {initial : Values α} {options : SolveOptions α} {sol : Solution α}

/-- The loop that a solution is the end of. -/
theorem exists_runs_of_solve (h : p.solve optimizer initial options = .ok sol) :
    ∃ compiled start cost t, p.compile initial = .ok (compiled, start) ∧ p.cost start = .ok cost ∧
      Restart.Runs p (fun v r => optimizer compiled v r options.stopping) options.stopping Restart.maxRuns
        (Restart.start start cost) (p.calls optimizer initial options) (.ok t) ∧
      sol = Restart.solution options.stopping.minError cost t := by
  have hsolves := p.solves optimizer initial options
  rw [h] at hsolves
  generalize p.calls optimizer initial options = cs at hsolves ⊢
  generalize hr : Except.ok sol = r at hsolves
  cases hsolves with
  | uncompiled | unevaluated => cases hr
  | @looped compiled start cost _ r hcompile hcost hruns =>
    obtain ⟨t, rfl, rfl⟩ := map_eq_ok.1 hr.symm
    exact ⟨compiled, start, cost, t, hcompile, hcost, hruns, rfl⟩

/-- What all calls keep holds between the start values and the solved values. -/
theorem related_of_solve {R : Compiled α → String → List α → List α → Prop}
    (hrefl : ∀ compiled name x, R compiled name x x)
    (htrans : ∀ compiled name x y z, R compiled name x y → R compiled name y z → R compiled name x z)
    (hkeeps : p.CallsKeep optimizer initial options R) (h : p.solve optimizer initial options = .ok sol) :
    ∃ compiled start, p.compile initial = .ok (compiled, start) ∧ Values.Related (R compiled) start sol.params := by
  obtain ⟨compiled, start, cost, t, hcompile, -, hruns, rfl⟩ := exists_runs_of_solve h
  exact ⟨compiled, start, hcompile,
    hruns.related (hrefl compiled) (htrans compiled) (hkeeps compiled start hcompile) t rfl⟩

/-- The final cost is that of the solved values. -/
theorem cost_of_solve (h : p.solve optimizer initial options = .ok sol) : p.cost sol.params = .ok sol.finalCost := by
  obtain ⟨compiled, start, cost, t, -, hcost, hruns, rfl⟩ := exists_runs_of_solve h
  exact (hruns.reports hcost).finalCost

/-- Calls are made for a compiled problem, and answered by the optimizer. -/
theorem exists_compile_of_mem_calls {c : Call α} (hc : c ∈ p.calls optimizer initial options) :
    ∃ compiled start, p.compile initial = .ok (compiled, start) ∧
      c.answer = optimizer compiled c.params c.radius options.stopping := by
  have hsolves := p.solves optimizer initial options
  generalize p.calls optimizer initial options = cs at hsolves hc
  generalize p.solve optimizer initial options = r at hsolves
  cases hsolves with
  | uncompiled | unevaluated => cases hc
  | looped hcompile hcost hruns => exact ⟨_, _, hcompile, hruns.answer c hc⟩

theorem CallsKeepLengths.lengths (h : p.CallsKeepLengths optimizer initial options) :
    ∀ c ∈ p.calls optimizer initial options, c.KeepsLengths := by
  intro c hc
  obtain ⟨compiled, start, hcompile, -⟩ := exists_compile_of_mem_calls hc
  exact (h compiled start hcompile c hc).lengths

theorem CallsKeep.imp {R S : Compiled α → String → List α → List α → Prop}
    (h : p.CallsKeep optimizer initial options R)
    (himp : ∀ compiled name x y, R compiled name x y → S compiled name x y) : p.CallsKeep optimizer initial options S :=
  fun compiled start hcompile c hc => (h compiled start hcompile c hc).imp (himp compiled)

/-- A solve whose calls keep lengths fails only for want of a compiled problem or of an answer. -/
theorem exists_error_solve_iff (hkeeps : ∀ c ∈ p.calls optimizer initial options, c.KeepsLengths) :
    (∃ e, p.solve optimizer initial options = .error e) ↔ (∃ e, p.compile initial = .error e) ∨
      ∃ c ∈ p.calls optimizer initial options, ∃ e, c.answer = .error e := by
  constructor
  · rintro ⟨e, he⟩
    have hsolves := p.solves optimizer initial options
    rw [he] at hsolves
    generalize p.calls optimizer initial options = cs at hsolves hkeeps ⊢
    generalize hr : Except.error e = r at hsolves
    cases hsolves with
    | uncompiled hcompile => exact .inl ⟨_, hcompile⟩
    | @unevaluated compiled start _ hcompile hcost =>
      -- what compiles has a cost at its start values
      obtain ⟨hp, hfits, -⟩ := exists_compile_iff.1 ⟨_, hcompile⟩
      obtain ⟨c, hc⟩ := exists_cost hp ((isStart_of_compile hcompile).fits hfits)
      rw [hcost] at hc
      cases hc
    | @looped compiled start cost _ r hcompile hcost hruns =>
      obtain ⟨hp, hfits, -⟩ := exists_compile_iff.1 ⟨_, hcompile⟩
      cases r with
      | ok t => cases hr
      | error e' =>
        have hstart := (isStart_of_compile hcompile).fits hfits
        obtain ⟨c, hc, e'', hanswer, -⟩ := hruns.unanswered_of_error hp hstart hkeeps e' rfl
        exact .inr ⟨c, hc, e'', hanswer⟩
  · intro h
    rw [exists_error_iff]
    rintro ⟨sol, hsol⟩
    obtain ⟨compiled, start, cost, t, hcompile, -, hruns, -⟩ := exists_runs_of_solve hsol
    obtain ⟨e, he⟩ | ⟨c, hc, e, he⟩ := h
    · rw [hcompile] at he
      cases he
    · obtain ⟨solved, hsolved⟩ := hruns.answered t rfl c hc
      rw [he] at hsolved
      cases hsolved

end Problem

end MultiView
