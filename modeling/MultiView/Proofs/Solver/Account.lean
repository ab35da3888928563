import MultiView.Proofs.Solver.Calls
import MultiView.Proofs.Solver.Compiled

/-!
# What a solution reports

Whatever the optimizer answers, the costs, the number of runs and the stall that a solution reports are those of the
calls that were made (`Problem.solve_account`): the final cost is the cost of the values that are returned, every run is
a call, and a solution has stalled exactly if there were calls and none changed a value.

`Restart.Account` is the invariant. One answer keeps it (`Restart.Step.account`), hence every loop does
(`Restart.Runs.account`). As long as the optimizer keeps the lengths of values, a loop fails only where a call is not
answered (`Restart.Runs.unanswered_of_error`).
-/

namespace MultiView

variable {α : Type} [Scalar α]

omit [Scalar α] in
theorem Problem.IsStart.fits {p : Problem α} {initial start : Values α} (h : p.IsStart initial start)
    (hfits : initial.Fits p) : start.Fits p := by
  intro b hb
  obtain ⟨x, hx, hlength⟩ := hfits b hb
  exact ⟨x, by rw [h, if_pos (List.mem_map_of_mem hb), hx], hlength⟩

/-- The start values cost what the initial values do. -/
theorem Problem.IsStart.cost {p : Problem α} {initial start : Values α} (h : p.IsStart initial start) :
    p.cost start = p.cost initial := by
  have heval : p.evaluate start = p.evaluate initial :=
    evaluate_congr fun b hb => by rw [h, if_pos (List.mem_map_of_mem hb)]
  rw [Problem.cost, heval, Problem.cost]

omit [Scalar α] in
/-- Values stay of their lengths when an answer that keeps lengths is merged into them. -/
theorem Values.Fits.merge {p : Problem α} {c : Call α} (hfits : c.params.Fits p) (hc : c.KeepsLengths)
    {solved : Values α} (hsolved : c.answer = .ok solved) :
    Values.Fits (c.params.merge solved) p := by
  intro b hb
  obtain ⟨x, hx, hlength⟩ := hfits b hb
  cases hy : solved.entries.reverse.lookup b.name with
  | none => exact ⟨x, by rw [Assoc.get?_merge, hy, hx]; rfl, hlength⟩
  | some y =>
    obtain ⟨es, es', hes, -⟩ := List.lookup_eq_some_iff.1 hy
    have hmem : (b.name, y) ∈ solved.entries := List.mem_reverse.1 (hes ▸ List.mem_append_right _ List.mem_cons_self)
    exact ⟨y, by rw [Assoc.get?_merge, hy]; rfl, (hc solved hsolved _ hmem x hx).trans hlength⟩

theorem Call.changes_iff {params : Values α} {radius : α} {solved : Values α} :
    (⟨params, radius, .ok solved⟩ : Call α).Changes ↔ Restart.differs params solved = true := by
  simp [Call.Changes, Restart.differs]

namespace Restart

variable {p : Problem α} {ask : Values α → α → Except OptimizerError (Values α)} {stopping : Stopping α}

/-! ## The invariant -/

/-- What calls from `s` to `t` account for. -/
structure Account (p : Problem α) (s : Progress α) (cs : List (Call α)) (t : Progress α) : Prop where
  cost : p.cost s.params = .ok s.cost → p.cost t.params = .ok t.cost
  runs : t.runs = s.runs + cs.length
  moved : t.moved = true ↔ s.moved = true ∨ ∃ c ∈ cs, c.Changes
  unmoved : (∀ c ∈ cs, ¬c.Changes) → t.params = s.params ∧ t.cost = s.cost

theorem Account.refl (s : Progress α) : Account p s [] s :=
  ⟨id, rfl, by simp, fun _ => ⟨rfl, rfl⟩⟩

theorem Account.trans {s t u : Progress α} {cs ds : List (Call α)} (h : Account p s cs t) (h' : Account p t ds u) :
    Account p s (cs ++ ds) u where
  cost hs := h'.cost (h.cost hs)
  runs := by rw [h'.runs, h.runs, List.length_append, Nat.add_assoc]
  moved := by simp only [h'.moved, h.moved, List.mem_append, or_and_right, exists_or, or_assoc]
  unmoved hall := by
    obtain ⟨hparams, hcost⟩ := h.unmoved fun c hc => hall c (List.mem_append_left _ hc)
    obtain ⟨hparams', hcost'⟩ := h'.unmoved fun c hc => hall c (List.mem_append_right _ hc)
    exact ⟨hparams'.trans hparams, hcost'.trans hcost⟩

/-- One answer keeps the account. -/
theorem Step.account {minRelDecrease : α} {s t : Progress α} {solved : Values α} {again : Bool}
    (h : Step p minRelDecrease s solved t again) : Account p s [⟨s.params, s.radius, .ok solved⟩] t := by
  cases h with
  | changed hdiffers hcost =>
    have hchanges : (⟨s.params, s.radius, .ok solved⟩ : Call α).Changes := Call.changes_iff.2 hdiffers
    exact ⟨fun _ => hcost, rfl, by simp [hchanges], fun hall => absurd hchanges (hall _ List.mem_cons_self)⟩
  | shrunk hsame hradius =>
    have hkeeps : ¬(⟨s.params, s.radius, .ok solved⟩ : Call α).Changes := by simp [Call.changes_iff, hsame]
    exact ⟨id, rfl, by simp [hkeeps], fun _ => ⟨rfl, rfl⟩⟩
  | stuck hsame hradius =>
    have hkeeps : ¬(⟨s.params, s.radius, .ok solved⟩ : Call α).Changes := by simp [Call.changes_iff, hsame]
    exact ⟨id, rfl, by simp [hkeeps], fun _ => ⟨rfl, rfl⟩⟩

/-- One answer that keeps lengths keeps the values fitting. -/
theorem Step.fits {minRelDecrease : α} {s t : Progress α} {solved : Values α} {again : Bool}
    (h : Step p minRelDecrease s solved t again) (hfits : s.params.Fits p)
    (hkeeps : Call.KeepsLengths ⟨s.params, s.radius, .ok solved⟩) : t.params.Fits p := by
  cases h with
  | changed hdiffers hcost => exact hfits.merge hkeeps rfl
  | shrunk | stuck => exact hfits

/-! ## Loops -/

theorem Runs.account {fuel : Nat} {s : Progress α} {cs : List (Call α)} {r : Except (SolveError α) (Progress α)}
    (h : Runs p ask stopping fuel s cs r) : ∀ t, r = .ok t → Account p s cs t := by
  induction h with
  | exhausted s => rintro t ⟨⟩; exact .refl s
  | small hcost => rintro t ⟨⟩; exact .refl _
  | unanswered hcost hask => rintro t ⟨⟩
  | broken hcost hask h => rintro t ⟨⟩
  | last hcost hask h => rintro t ⟨⟩; exact h.account
  | next hcost hask h hrest ih => exact fun t ht => h.account.trans (ih t ht)

theorem Runs.length_le {fuel : Nat} {s : Progress α} {cs : List (Call α)} {r : Except (SolveError α) (Progress α)}
    (h : Runs p ask stopping fuel s cs r) : cs.length ≤ fuel := by
  induction h with
  | exhausted s => exact Nat.le_refl 0
  | small hcost => exact Nat.zero_le _
  | unanswered | broken | last => simp
  | next hcost hask h hrest ih => simpa using ih

/-- Where a run is allowed, there is a call unless the cost is small, or not a number. -/
theorem Runs.eq_nil_iff {fuel : Nat} {s : Progress α} {cs : List (Call α)} {r : Except (SolveError α) (Progress α)}
    (h : Runs p ask stopping (fuel + 1) s cs r) : cs = [] ↔ ¬stopping.minError < s.cost := by
  cases h <;> simp [*]

/-- A loop over values that fit fails only where a call is not answered, if the calls keep lengths. -/
theorem Runs.unanswered_of_error (hp : p.WellFormed) {fuel : Nat} {s : Progress α} {cs : List (Call α)}
    {r : Except (SolveError α) (Progress α)} (h : Runs p ask stopping fuel s cs r) :
    s.params.Fits p → (∀ c ∈ cs, c.KeepsLengths) → ∀ e, r = .error e →
      ∃ c ∈ cs, ∃ e', c.answer = .error e' ∧ e = .optimizer e' := by
  induction h with
  | exhausted | small | last => rintro - - e ⟨⟩
  | @unanswered fuel s e hcost hask => rintro - - _ ⟨⟩; exact ⟨_, List.mem_cons_self, e, rfl, rfl⟩
  | broken hcost hask h =>
    intro hfits hkeeps
    obtain ⟨e', he'⟩ := advance_error h
    obtain ⟨c, hc⟩ := Problem.exists_cost hp (hfits.merge (hkeeps _ List.mem_cons_self) rfl)
    rw [he'] at hc
    cases hc
  | next hcost hask h hrest ih =>
    intro hfits hkeeps e he
    have hfits' := h.fits hfits (hkeeps _ List.mem_cons_self)
    obtain ⟨c, hc, hc'⟩ := ih hfits' (fun c hc => hkeeps c (List.mem_cons_of_mem _ hc)) e he
    exact ⟨c, List.mem_cons_of_mem _ hc, hc'⟩

end Restart

/-! ## Solutions -/

/-- What a solution reports of calls from start values. -/
structure Solution.Reports (p : Problem α) (minError : α) (start : Values α) (cs : List (Call α)) (sol : Solution α) :
    Prop where
  initialCost : p.cost start = .ok sol.initialCost
  finalCost : p.cost sol.params = .ok sol.finalCost
  runs : sol.runs = cs.length
  runs_le : sol.runs ≤ 16
  runs_eq_zero : sol.runs = 0 ↔ ¬minError < sol.initialCost
  unrun : sol.runs = 0 → sol.params = start ∧ sol.stalled = false
  stalled : sol.stalled = true ↔ 0 < sol.runs ∧ ∀ c ∈ cs, ¬c.Changes
  unmoved : sol.stalled = true → sol.params = start ∧ sol.finalCost = sol.initialCost

/-- The solution that a loop ends with reports the loop's calls. -/
theorem Restart.Runs.reports {p : Problem α} {ask : Values α → α → Except OptimizerError (Values α)}
    {stopping : Stopping α} {start : Values α} {cost : α} {cs : List (Call α)} {t : Restart.Progress α}
    (hcost : p.cost start = .ok cost)
    (h : Restart.Runs p ask stopping Restart.maxRuns (Restart.start start cost) cs (.ok t)) :
    Solution.Reports p stopping.minError start cs (Restart.solution stopping.minError cost t) := by
  have haccount : Restart.Account p (Restart.start start cost) cs t := h.account t rfl
  have hnil : cs = [] ↔ ¬stopping.minError < cost := h.eq_nil_iff
  have hruns : t.runs = cs.length := by simpa [Restart.start] using haccount.runs
  have hzero : t.runs = 0 ↔ ¬stopping.minError < cost := by rw [hruns, List.length_eq_zero_iff, hnil]
  have hmoved : t.moved = true ↔ ∃ c ∈ cs, c.Changes := by simpa [Restart.start] using haccount.moved
  have hunmoved : t.moved = false ↔ ∀ c ∈ cs, ¬c.Changes := by
    rw [← Bool.not_eq_true, hmoved]
    simp only [not_exists, not_and]
  have hstalled : (Restart.solution stopping.minError cost t).stalled = true ↔ 0 < t.runs ∧ ∀ c ∈ cs, ¬c.Changes := by
    rw [Nat.pos_iff_ne_zero, Ne, hzero, not_not, ← hunmoved]
    simp [Restart.solution, and_comm]
  exact
    { initialCost := hcost
      finalCost := haccount.cost hcost
      runs := hruns
      runs_le := Nat.le_trans (Nat.le_of_eq hruns) h.length_le
      runs_eq_zero := hzero
      unrun := fun hruns0 => by
        have hempty : cs = [] := hnil.2 (hzero.1 hruns0)
        refine ⟨(haccount.unmoved (by simp [hempty])).1, ?_⟩
        have hnot : ¬0 < t.runs := by rw [show t.runs = 0 from hruns0]; exact Nat.lt_irrefl 0
        exact Bool.eq_false_iff.2 fun hs => hnot (hstalled.1 hs).1
      stalled := hstalled
      unmoved := fun hs => haccount.unmoved (hstalled.1 hs).2 }

/-- A solution reports the calls of its solve, and a solve whose calls keep lengths fails only because the problem does
not compile or a call is not answered. -/
theorem Problem.solve_account (p : Problem α) (optimizer : Optimizer α) (initial : Values α)
    (options : SolveOptions α) :
    (p.solveIn optimizer.noted initial options).run [] =
        (p.solve optimizer initial options, p.calls optimizer initial options) ∧
      (∀ sol, p.solve optimizer initial options = .ok sol → ∃ start, p.IsStart initial start ∧
        p.cost initial = .ok sol.initialCost ∧
        sol.Reports p options.stopping.minError start (p.calls optimizer initial options)) ∧
      ((∀ c ∈ p.calls optimizer initial options, c.KeepsLengths) → ∀ e, p.solve optimizer initial options = .error e →
        (∃ e', p.compile initial = .error e' ∧ e = .compile e') ∨
          ∃ c ∈ p.calls optimizer initial options, ∃ e', c.answer = .error e' ∧ e = .optimizer e') := by
  refine ⟨p.run_solveIn_noted optimizer initial options, ?_, ?_⟩
  · intro sol hsol
    have h := p.solves optimizer initial options
    rw [hsol] at h
    -- a case split on the derivation wants variables for its calls and its outcome
    generalize p.calls optimizer initial options = cs at h ⊢
    generalize hr : Except.ok sol = r at h
    cases h with
    | uncompiled | unevaluated => cases hr
    | @looped compiled start cost _ r hcompile hcost hruns =>
      obtain ⟨t, rfl, rfl⟩ := map_eq_ok.1 hr.symm
      have hstart := Problem.isStart_of_compile hcompile
      exact ⟨start, hstart, hstart.cost ▸ hcost, hruns.reports hcost⟩
  · intro hkeeps e he
    have h := p.solves optimizer initial options
    rw [he] at h
    generalize p.calls optimizer initial options = cs at h hkeeps ⊢
    generalize hr : Except.error e = r at h
    cases h with
    | uncompiled hcompile => cases hr; exact .inl ⟨_, hcompile, rfl⟩
    | unevaluated hcompile hcost =>
      obtain ⟨hp, hfits, -⟩ := Problem.exists_compile_iff.1 ⟨_, hcompile⟩
      obtain ⟨c, hc⟩ := Problem.exists_cost hp ((Problem.isStart_of_compile hcompile).fits hfits)
      rw [hcost] at hc
      cases hc
    | @looped compiled start cost _ r hcompile hcost hruns =>
      obtain ⟨hp, hfits, -⟩ := Problem.exists_compile_iff.1 ⟨_, hcompile⟩
      cases r with
      | ok t => cases hr
      | error e' =>
        cases hr
        exact .inr (hruns.unanswered_of_error hp ((Problem.isStart_of_compile hcompile).fits hfits) hkeeps e rfl)

/-- A point on the optical axis, seen one pixel off it. -/
def Problem.offAxis : Problem Float :=
  ((Problem.empty.addParam "point" 3 .euclidean .free none).addParam "camera" 3 .euclidean .free none).addResidual
    (.make (.fixedPose .simplePinhole ⟨⟨0, 0, 0, 1⟩, ⟨0, 0, 0⟩⟩ ⟨1, 0⟩) [0, 1] .none)

def Values.offAxis : Values Float := ⟨[("point", [0, 0, 1]), ("camera", [1, 0, 0])]⟩

/-- An optimizer that has nothing to say stalls, and one that gives up is why a solve fails. -/
theorem Problem.solve_account_offAxis :
    (∃ sol, Problem.offAxis.solve (fun _ _ _ _ => .ok .empty) .offAxis .default = .ok sol ∧ sol.stalled = true ∧
      sol.finalCost = sol.initialCost) ∧
    ∃ e, Problem.offAxis.solve (fun _ _ _ _ => .error .noConvergence) .offAxis .default = .error e ∧
      ((∃ e', Problem.offAxis.compile .offAxis = .error e' ∧ e = .compile e') ∨
        ∃ c ∈ Problem.offAxis.calls (fun _ _ _ _ => .error .noConvergence) .offAxis .default,
          ∃ e', c.answer = .error e' ∧ e = .optimizer e') := by
  constructor
  · have hstalled : (Problem.offAxis.solve (fun _ _ _ _ => .ok .empty) .offAxis .default).toOption.map (·.stalled) =
        some true := by decide +kernel
    cases hsol : Problem.offAxis.solve (fun _ _ _ _ => .ok .empty) .offAxis .default with
    | error e => rw [hsol] at hstalled; cases hstalled
    | ok sol =>
      rw [hsol] at hstalled
      have hstalled : sol.stalled = true := Option.some.inj hstalled
      obtain ⟨start, -, -, hreports⟩ := (Problem.offAxis.solve_account _ _ _).2.1 sol hsol
      exact ⟨sol, rfl, hstalled, (hreports.unmoved hstalled).2⟩
  · have hcalls : (Problem.offAxis.calls (fun _ _ _ _ => .error .noConvergence) .offAxis .default).all
        (fun c => c.answer.toOption.isNone) = true := by decide +kernel
    have hfails : (Problem.offAxis.solve (fun _ _ _ _ => .error .noConvergence) .offAxis .default).toOption.isNone =
        true := by decide +kernel
    have hkeeps : ∀ c ∈ Problem.offAxis.calls (fun _ _ _ _ => .error .noConvergence) .offAxis .default,
        c.KeepsLengths := by
      intro c hc solved hsolved
      have hnone := List.all_eq_true.1 hcalls c hc
      rw [hsolved] at hnone
      cases hnone
    cases hsol : Problem.offAxis.solve (fun _ _ _ _ => .error .noConvergence) .offAxis .default with
    | ok sol => rw [hsol] at hfails; cases hfails
    | error e => exact ⟨e, rfl, (Problem.offAxis.solve_account _ _ _).2.2 hkeeps e hsol⟩

end MultiView
