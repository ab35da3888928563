import MultiView.Solver.Restart
import MultiView.Proofs.Check

/-!
# The calls of a solve

An optimizer is observed by writing its calls down (`Optimizer.noted`); the calls that a solve makes are what is written
then (`Problem.calls`), and writing them down changes nothing (`Problem.run_solveIn_noted`).

`Restart.Step` lists what a single answer can lead to, and `Restart.Runs` derives the outcome of a loop from its calls.
Every loop has such a derivation (`Restart.exists_runs`), and so has every solve (`Problem.solves`).
-/

namespace MultiView

variable {α : Type}

/-- One call of an optimizer: the values and the radius that it was given, and what it answered. -/
structure Call (α : Type) where
  params : Values α
  radius : α
  answer : Except OptimizerError (Values α)

variable [Scalar α]

/-- Did the optimizer return a value that differs from the one it was given, or one of a name that it was not given? -/
def Call.Changes (c : Call α) : Prop :=
  ∃ solved, c.answer = .ok solved ∧ ∃ e ∈ solved.entries, (c.params.get? e.1 == some e.2) = false

omit [Scalar α] in
/-- Has every returned value the length of the one that was given? -/
def Call.KeepsLengths (c : Call α) : Prop :=
  ∀ solved, c.answer = .ok solved → ∀ e ∈ solved.entries, ∀ x, c.params.get? e.1 = some x → e.2.length = x.length

omit [Scalar α] in
/-- Ask, and write the call down after those in the state. -/
def noting (ask : Values α → α → Except OptimizerError (Values α)) (params : Values α) (radius : α) :
    StateM (List (Call α)) (Except OptimizerError (Values α)) :=
  modifyGet fun calls => (ask params radius, calls ++ [⟨params, radius, ask params radius⟩])

omit [Scalar α] in
/-- The optimizer, with its calls written down in order. -/
def Optimizer.noted (optimizer : Optimizer α) (compiled : Compiled α) (params : Values α) (radius : α)
    (stopping : Stopping α) : StateM (List (Call α)) (Except OptimizerError (Values α)) :=
  noting (fun params radius => optimizer compiled params radius stopping) params radius

/-- The calls that solving a problem makes. -/
def Problem.calls (p : Problem α) (optimizer : Optimizer α) (initial : Values α) (options : SolveOptions α) :
    List (Call α) :=
  ((p.solveIn optimizer.noted initial options).run []).2

namespace Restart

/-! ## One answer -/

/-- What an answer from `s` leads to, and whether another run may follow. -/
inductive Step (p : Problem α) (minRelDecrease : α) (s : Progress α) (solved : Values α) : Progress α → Bool → Prop
  | changed {cost : α} (hdiffers : differs s.params solved = true) (hcost : p.cost (s.params.merge solved) = .ok cost) :
      Step p minRelDecrease s solved ⟨s.params.merge solved, cost, s.radius, true, s.runs + 1⟩
        (!settled minRelDecrease s.cost cost)
  | shrunk (hsame : differs s.params solved = false) (hradius : ¬s.radius ≤ minRadius) :
      Step p minRelDecrease s solved { s with radius := s.radius * shrink, runs := s.runs + 1 } true
  | stuck (hsame : differs s.params solved = false) (hradius : s.radius ≤ minRadius) :
      Step p minRelDecrease s solved { s with runs := s.runs + 1 } false

theorem step_of_advance {p : Problem α} {minRelDecrease : α} {s t : Progress α} {solved : Values α} {again : Bool}
    (h : advance p minRelDecrease s solved = .ok (t, again)) : Step p minRelDecrease s solved t again := by
  unfold advance at h
  split at h
  · next hdiffers =>
    simp only [bind_eq_ok, mapError_eq_ok, pure_eq_ok, Prod.mk.injEq] at h
    obtain ⟨cost, hcost, rfl, rfl⟩ := h
    exact .changed hdiffers hcost
  · next hsame =>
    rw [Bool.not_eq_true] at hsame
    split at h
    · next hradius =>
      simp only [pure_eq_ok, Prod.mk.injEq] at h
      obtain ⟨rfl, rfl⟩ := h
      exact .stuck hsame hradius
    · next hradius =>
      simp only [pure_eq_ok, Prod.mk.injEq] at h
      obtain ⟨rfl, rfl⟩ := h
      exact .shrunk hsame hradius

/-- An answer only fails to lead on where the values that it gives have no cost. -/
theorem advance_error {p : Problem α} {minRelDecrease : α} {s : Progress α} {solved : Values α} {e : SolveError α}
    (h : advance p minRelDecrease s solved = .error e) : ∃ e', p.cost (s.params.merge solved) = .error e' := by
  unfold advance at h
  split at h
  · cases hcost : p.cost (s.params.merge solved) with
    | error e' => exact ⟨e', rfl⟩
    | ok cost => simp [hcost, Except.mapError, pure, Except.pure] at h
  · split at h <;> simp [pure, Except.pure] at h

/-! ## The loop -/

/-- The outcome of at most `fuel` runs, derived from the calls that they make. -/
inductive Runs (p : Problem α) (ask : Values α → α → Except OptimizerError (Values α)) (stopping : Stopping α) :
    (fuel : Nat) → Progress α → List (Call α) → Except (SolveError α) (Progress α) → Prop
  | exhausted (s : Progress α) : Runs p ask stopping 0 s [] (.ok s)
  | small {fuel : Nat} {s : Progress α} (hcost : ¬stopping.minError < s.cost) :
      Runs p ask stopping (fuel + 1) s [] (.ok s)
  | unanswered {fuel : Nat} {s : Progress α} {e : OptimizerError} (hcost : stopping.minError < s.cost)
      (hask : ask s.params s.radius = .error e) :
      Runs p ask stopping (fuel + 1) s [⟨s.params, s.radius, .error e⟩] (.error (.optimizer e))
  | broken {fuel : Nat} {s : Progress α} {solved : Values α} {e : SolveError α} (hcost : stopping.minError < s.cost)
      (hask : ask s.params s.radius = .ok solved) (h : advance p stopping.minRelDecrease s solved = .error e) :
      Runs p ask stopping (fuel + 1) s [⟨s.params, s.radius, .ok solved⟩] (.error e)
  | last {fuel : Nat} {s t : Progress α} {solved : Values α} (hcost : stopping.minError < s.cost)
      (hask : ask s.params s.radius = .ok solved) (h : Step p stopping.minRelDecrease s solved t false) :
      Runs p ask stopping (fuel + 1) s [⟨s.params, s.radius, .ok solved⟩] (.ok t)
  | next {fuel : Nat} {s t : Progress α} {solved : Values α} {cs : List (Call α)}
      {r : Except (SolveError α) (Progress α)} (hcost : stopping.minError < s.cost)
      (hask : ask s.params s.radius = .ok solved) (h : Step p stopping.minRelDecrease s solved t true)
      (hrest : Runs p ask stopping fuel t cs r) :
      Runs p ask stopping (fuel + 1) s (⟨s.params, s.radius, .ok solved⟩ :: cs) r

/-- Every loop has a derivation, whose calls are those that are written down. -/
theorem exists_runs (p : Problem α) (ask : Values α → α → Except OptimizerError (Values α)) (stopping : Stopping α)
    (fuel : Nat) (s : Progress α) :
    ∃ cs r, Runs p ask stopping fuel s cs r ∧ Id.run (loop p (fun v r => pure (ask v r)) stopping fuel s) = r ∧
      ∀ calls, (loop p (noting ask) stopping fuel s).run calls = (r, calls ++ cs) := by
  induction fuel generalizing s with
  | zero => exact ⟨[], .ok s, .exhausted s, rfl, fun calls => by rw [List.append_nil]; rfl⟩
  | succ fuel ih =>
    by_cases hcost : stopping.minError < s.cost
    · cases hask : ask s.params s.radius with
      | error e =>
        exact ⟨_, _, .unanswered hcost hask, by simp [loop, hcost, hask],
          fun calls => by simp [loop, hcost, noting, hask]; rfl⟩
      | ok solved =>
        cases h : advance p stopping.minRelDecrease s solved with
        | error e =>
          exact ⟨_, _, .broken hcost hask h, by simp [loop, hcost, hask, h],
            fun calls => by simp [loop, hcost, noting, hask, h]; rfl⟩
        | ok next =>
          obtain ⟨t, again⟩ := next
          cases again with
          | false =>
            exact ⟨_, _, .last hcost hask (step_of_advance h), by simp [loop, hcost, hask, h],
              fun calls => by simp [loop, hcost, noting, hask, h]; rfl⟩
          | true =>
            obtain ⟨cs, r, hruns, hpure, hnoted⟩ := ih t
            exact ⟨_, r, .next hcost hask (step_of_advance h) hruns, by simpa [loop, hcost, hask, h] using hpure,
              fun calls => by simp [loop, hcost, noting, hask, h, hnoted]⟩
    · exact ⟨[], .ok s, .small hcost, by simp [loop, hcost], fun calls => by simp [loop, hcost]; rfl⟩

end Restart

/-! ## Solves -/

section Solve

variable (p : Problem α) (optimizer : Optimizer α) (initial : Values α) (options : SolveOptions α)

/-- How a solve ends: before its loop, without a call, or with what its calls lead to. -/
inductive Problem.Solves : List (Call α) → Except (SolveError α) (Solution α) → Prop
  | uncompiled {e : CompileError α} (h : p.compile initial = .error e) : Solves [] (.error (.compile e))
  | unevaluated {compiled : Compiled α} {start : Values α} {e : EvaluationError}
      (h : p.compile initial = .ok (compiled, start)) (hcost : p.cost start = .error e) :
      Solves [] (.error (.evaluation e))
  | looped {compiled : Compiled α} {start : Values α} {cost : α} {cs : List (Call α)}
      {r : Except (SolveError α) (Restart.Progress α)} (h : p.compile initial = .ok (compiled, start))
      (hcost : p.cost start = .ok cost)
      (hruns : Restart.Runs p (fun v r => optimizer compiled v r options.stopping) options.stopping Restart.maxRuns
        (Restart.start start cost) cs r) :
      Solves cs (r.map (Restart.solution options.stopping.minError cost))

theorem Problem.exists_solves : ∃ cs r, p.Solves optimizer initial options cs r ∧
    p.solve optimizer initial options = r ∧ (p.solveIn optimizer.noted initial options).run [] = (r, cs) := by
  cases h : p.compile initial with
  | error e =>
    exact ⟨_, _, .uncompiled h, by simp [solve, solveIn, h, Except.mapError],
      by simp [solveIn, h, Except.mapError]; rfl⟩
  | ok c =>
    obtain ⟨compiled, start⟩ := c
    cases hcost : p.cost start with
    | error e =>
      exact ⟨_, _, .unevaluated h hcost, by simp [solve, solveIn, h, hcost, Except.mapError],
        by simp [solveIn, h, hcost, Except.mapError]; rfl⟩
    | ok cost =>
      obtain ⟨cs, r, hruns, hpure, hnoted⟩ :=
        Restart.exists_runs p (fun v r => optimizer compiled v r options.stopping) options.stopping Restart.maxRuns
          (Restart.start start cost)
      refine ⟨cs, _, .looped h hcost hruns, ?_, ?_⟩
      · rw [← hpure]
        simp [solve, solveIn, h, hcost, Except.mapError]
      · have hnil := hnoted []
        rw [List.nil_append] at hnil
        simp only [solveIn, h, hcost, Except.mapError, Optimizer.noted, StateT.run_bind, StateT.run_pure]
        exact congrArg (Prod.map (Except.map (Restart.solution options.stopping.minError cost)) id) hnil

/-- Writing the calls down changes nothing. -/
theorem Problem.run_solveIn_noted : (p.solveIn optimizer.noted initial options).run [] =
    (p.solve optimizer initial options, p.calls optimizer initial options) := by
  obtain ⟨cs, r, -, hpure, hnoted⟩ := p.exists_solves optimizer initial options
  rw [calls, hnoted, hpure]

/-- The outcome of a solve is the end of its calls. -/
theorem Problem.solves :
    p.Solves optimizer initial options (p.calls optimizer initial options) (p.solve optimizer initial options) := by
  obtain ⟨cs, r, hsolves, hpure, hnoted⟩ := p.exists_solves optimizer initial options
  rwa [calls, hnoted, hpure]

end Solve

end MultiView
