import MultiView.Proofs.Scalar.Real
import MultiView.Proofs.Solver.Kept

/-!
# The schedule of a solve

Whatever the optimizer answers, the calls of a solve follow a schedule (`Calls.Scheduled`): each starts from the
values of the last call before it that changed something, with a radius that has shrunk once for every call before it
that changed nothing. One answer leads from one call of the schedule to the next (`Restart.Step.next`), and so every
loop follows it (`Restart.Runs.scheduled`).

A loop that stops before its calls are used up had a reason to (`Restart.Runs.ended`). Radii only shrink, so the calls
that change nothing are bounded by the number of times the first radius shrinks before it is least
(`Restart.Runs.idle_le`), which in exact arithmetic is five. `Problem.solve_schedule` is all of this for a solve.
-/

namespace MultiView

variable {α : Type} [Scalar α]

/-! ## Lists of calls -/

/-- `Call.Changes`, computed. -/
def Call.changes (c : Call α) : Bool :=
  match c.answer with
  | .ok solved => Restart.differs c.params solved
  | .error _ => false

theorem Call.changes_eq_true {c : Call α} : c.changes = true ↔ c.Changes := by
  obtain ⟨params, radius, answer⟩ := c
  cases answer with
  | ok solved => exact changes_iff.symm
  | error e => simp [changes, Changes]

instance (c : Call α) : Decidable c.Changes := decidable_of_iff _ c.changes_eq_true

omit [Scalar α] in
/-- The values after a call: those it was given, with what was returned put in place of them. -/
def Call.result (c : Call α) : Values α :=
  match c.answer with
  | .ok solved => c.params.merge solved
  | .error _ => c.params

namespace Calls

/-- The values after calls that began with `start`: the result of the last call that changed something. -/
def latest (start : Values α) (cs : List (Call α)) : Values α :=
  ((cs.filter fun c => c.Changes).getLast?.map Call.result).getD start

/-- The number of calls that changed nothing. -/
def idle (cs : List (Call α)) : Nat := cs.countP fun c => ¬c.Changes

/-- A radius that has shrunk so many times. -/
def shrunk (radius : α) (times : Nat) : α := Nat.iterate (· * Restart.shrink) times radius

theorem latest_cons (start : Values α) (c : Call α) (cs : List (Call α)) :
    latest start (c :: cs) = latest (if c.Changes then c.result else start) cs := by
  by_cases h : c.Changes
  · rw [latest, latest, List.filter_cons_of_pos (by simpa using h), if_pos h, List.getLast?_cons]
    cases (cs.filter fun c => c.Changes).getLast? <;> rfl
  · rw [latest, latest, List.filter_cons_of_neg (by simpa using h), if_neg h]

theorem idle_cons (c : Call α) (cs : List (Call α)) :
    idle (c :: cs) = idle cs + if c.Changes then 0 else 1 := by
  by_cases h : c.Changes <;> simp [idle, h]

/-- Every call starts from the latest values, with a radius that has shrunk for each idle call before. -/
structure Scheduled (start : Values α) (radius : α) (cs : List (Call α)) : Prop where
  params : ∀ i c, cs[i]? = some c → c.params = latest start (cs.take i)
  radius : ∀ i c, cs[i]? = some c → c.radius = shrunk radius (idle (cs.take i))

theorem Scheduled.nil (start : Values α) (radius : α) : Scheduled start radius [] :=
  ⟨by simp, by simp⟩

/-- A call, and then calls from what it leads to. -/
theorem Scheduled.cons {c : Call α} {cs : List (Call α)}
    (h : Scheduled (if c.Changes then c.result else c.params)
      (if c.Changes then c.radius else c.radius * Restart.shrink) cs) :
    Scheduled c.params c.radius (c :: cs) where
  params i d hd := by
    cases i with
    | zero => cases hd; rfl
    | succ i => rw [List.take_succ_cons, latest_cons, h.params i d hd]
  radius i d hd := by
    cases i with
    | zero => cases hd; rfl
    | succ i =>
      rw [List.take_succ_cons, idle_cons, h.radius i d hd]
      split <;> rfl

theorem Scheduled.singleton (c : Call α) : Scheduled c.params c.radius [c] := .cons (.nil _ _)

end Calls

namespace Restart

variable {p : Problem α} {ask : Values α → α → Except OptimizerError (Values α)} {stopping : Stopping α}

/-! ## Loops -/

/-- What follows an answer after which there may be another call. -/
theorem Step.next {minRelDecrease : α} {s t : Progress α} {solved : Values α}
    (h : Step p minRelDecrease s solved t true) {c : Call α} (hc : c = ⟨s.params, s.radius, .ok solved⟩) :
    t.params = (if c.Changes then c.result else c.params) ∧
      t.radius = if c.Changes then c.radius else c.radius * shrink := by
  generalize hagain : true = again at h
  subst hc
  cases h with
  | changed hdiffers hcost =>
    have hchanges : (⟨s.params, s.radius, .ok solved⟩ : Call α).Changes := Call.changes_iff.2 hdiffers
    rw [if_pos hchanges, if_pos hchanges]
    exact ⟨rfl, rfl⟩
  | shrunk hsame hradius =>
    have hkeeps : ¬(⟨s.params, s.radius, .ok solved⟩ : Call α).Changes := by simp [Call.changes_iff, hsame]
    rw [if_neg hkeeps, if_neg hkeeps]
    exact ⟨rfl, rfl⟩
  | stuck => cases hagain

theorem Runs.scheduled {fuel : Nat} {s : Progress α} {cs : List (Call α)} {r : Except (SolveError α) (Progress α)}
    (h : Runs p ask stopping fuel s cs r) : Calls.Scheduled s.params s.radius cs := by
  induction h with
  | exhausted s => exact .nil _ _
  | small => exact .nil _ _
  | unanswered | broken | last => exact Calls.Scheduled.singleton ⟨_, _, _⟩
  | next hcost hask h hrest ih =>
    obtain ⟨hparams, hradius⟩ := h.next rfl
    rw [hparams, hradius] at ih
    exact Calls.Scheduled.cons ih

/-- Once a radius has shrunk to the least one, a call that changes nothing is the last. -/
theorem Runs.idle_le {fuel : Nat} {s : Progress α} {cs : List (Call α)} {r : Except (SolveError α) (Progress α)}
    (h : Runs p ask stopping fuel s cs r) :
    ∀ times, Calls.shrunk s.radius times ≤ minRadius → Calls.idle cs ≤ times + 1 := by
  induction h with
  | exhausted s => simp [Calls.idle]
  | small => simp [Calls.idle]
  | unanswered | broken | last =>
    intro times _
    rw [Calls.idle_cons]
    split <;> simp [Calls.idle]
  | next hcost hask h hrest ih =>
    intro times hleast
    rw [Calls.idle_cons]
    generalize hagain : true = again at h
    cases h with
    | changed hdiffers hcost =>
      rw [if_pos (Call.changes_iff.2 hdiffers)]
      exact ih times hleast
    | shrunk hsame hradius =>
      cases times with
      | zero => exact absurd hleast hradius
      | succ times =>
        have hrest := ih times hleast
        split <;> omega
    | stuck => cases hagain

/-- Why there is no call after the last of `cs`, where the cost is `cost`. -/
inductive Ended (p : Problem α) (stopping : Stopping α) (cs : List (Call α)) (cost : α) : Prop
  | small (hcost : ¬stopping.minError < cost)
  | stuck {c : Call α} (hlast : cs.getLast? = some c) (hidle : ¬c.Changes) (hradius : c.radius ≤ minRadius)
  | settled {c : Call α} {before : α} (hlast : cs.getLast? = some c) (hchanges : c.Changes)
      (hbefore : p.cost c.params = .ok before) (hafter : p.cost c.result = .ok cost)
      (hsettled : Scalar.isFinite cost = false ∨
        Scalar.abs (before - cost) ≤ stopping.minRelDecrease * Scalar.abs cost)

theorem Ended.cons {c : Call α} {cs : List (Call α)} {cost : α} (h : Ended p stopping cs cost) :
    Ended p stopping (c :: cs) cost := by
  cases h with
  | small hcost => exact .small hcost
  | stuck hlast hidle hradius => exact .stuck (by rw [List.getLast?_cons, hlast]; rfl) hidle hradius
  | settled hlast hchanges hbefore hafter hsettled =>
    exact .settled (by rw [List.getLast?_cons, hlast]; rfl) hchanges hbefore hafter hsettled

/-- What an answer says after which there is no other call. -/
theorem Step.ended {s t : Progress α} {solved : Values α} (h : Step p stopping.minRelDecrease s solved t false)
    (hcost : p.cost s.params = .ok s.cost) : Ended p stopping [⟨s.params, s.radius, .ok solved⟩] t.cost := by
  generalize hagain : false = again at h
  cases h with
  | changed hdiffers hmerged =>
    rw [eq_comm, Bool.not_eq_false', settled, Bool.or_eq_true, Bool.not_eq_true', decide_eq_true_eq] at hagain
    exact .settled rfl (Call.changes_iff.2 hdiffers) hcost hmerged hagain
  | shrunk => cases hagain
  | stuck hsame hradius => exact .stuck rfl (by simp [Call.changes_iff, hsame]) hradius

/-- A loop that comes to its end with calls to spare has a reason to. -/
theorem Runs.ended {fuel : Nat} {s : Progress α} {cs : List (Call α)} {r : Except (SolveError α) (Progress α)}
    (h : Runs p ask stopping fuel s cs r) :
    p.cost s.params = .ok s.cost → cs.length < fuel → ∀ t, r = .ok t → Ended p stopping cs t.cost := by
  induction h with
  | exhausted s => exact fun _ hspare => absurd hspare (Nat.lt_irrefl 0)
  | small hsmall => rintro - - t ⟨⟩; exact .small hsmall
  | unanswered | broken => rintro - - t ⟨⟩
  | last hallowed hask h => rintro hcost - t ⟨⟩; exact h.ended hcost
  | next hallowed hask h hrest ih =>
    intro hcost hspare t ht
    exact (ih (h.account.cost hcost) (Nat.lt_of_succ_lt_succ hspare) t ht).cons

end Restart

/-! ## Solves -/

/-- The calls of a solve start from the latest values, with the radius that is left, and are at most sixteen. If they
are fewer, a solution says why. -/
structure Problem.FollowsSchedule (p : Problem α) (optimizer : Optimizer α) (initial : Values α)
    (options : SolveOptions α) : Prop where
  observed : (p.solveIn optimizer.noted initial options).run [] =
    (p.solve optimizer initial options, p.calls optimizer initial options)
  length_le : (p.calls optimizer initial options).length ≤ 16
  call : ∀ i c, (p.calls optimizer initial options)[i]? = some c → ∃ compiled start,
    p.compile initial = .ok (compiled, start) ∧ p.IsStart initial start ∧
      c.answer = optimizer compiled c.params c.radius options.stopping ∧
      c.params = Calls.latest start ((p.calls optimizer initial options).take i) ∧
      c.radius = Calls.shrunk Restart.initialRadius (Calls.idle ((p.calls optimizer initial options).take i))
  ended : ∀ sol, p.solve optimizer initial options = .ok sol → (p.calls optimizer initial options).length < 16 →
    Restart.Ended p options.stopping (p.calls optimizer initial options) sol.finalCost

theorem Problem.followsSchedule (p : Problem α) (optimizer : Optimizer α) (initial : Values α)
    (options : SolveOptions α) : p.FollowsSchedule optimizer initial options := by
  have hsolves := p.solves optimizer initial options
  have hobserved := p.run_solveIn_noted optimizer initial options
  generalize hcs : p.calls optimizer initial options = cs at hsolves
  generalize hr : p.solve optimizer initial options = r at hsolves
  cases hsolves with
  | uncompiled | unevaluated =>
    exact ⟨hobserved, by simp [hcs], by simp [hcs], fun sol hsol => by rw [hr] at hsol; cases hsol⟩
  | @looped compiled start cost _ r hcompile hcost hruns =>
    have hscheduled := hruns.scheduled
    refine ⟨hobserved, hcs ▸ hruns.length_le, ?_, ?_⟩
    · rw [hcs]
      intro i c hc
      exact ⟨compiled, start, hcompile, isStart_of_compile hcompile, hruns.answer c (List.mem_of_getElem? hc),
        hscheduled.params i c hc, hscheduled.radius i c hc⟩
    · rw [hcs, hr]
      intro sol hsol hspare
      obtain ⟨t, rfl, rfl⟩ := map_eq_ok.1 hsol
      exact hruns.ended hcost hspare t rfl

section Exact

theorem Calls.shrunk_eq (radius : ℝ) (times : Nat) : shrunk radius times = radius / 100 ^ times := by
  induction times generalizing radius with
  | zero => rw [pow_zero, div_one]; rfl
  | succ times ih =>
    have hstep : shrunk radius (times + 1) = shrunk (radius * Restart.shrink) times := rfl
    have hshrink : (Restart.shrink : ℝ) = 1 / 100 := by norm_num [Restart.shrink, Scalar.decimal]
    rw [hstep, ih, hshrink, pow_succ]
    field_simp

theorem Calls.shrunk_initialRadius (times : Nat) :
    shrunk (Restart.initialRadius : ℝ) times = 10 ^ 4 / 100 ^ times := by
  rw [shrunk_eq]
  norm_num [Restart.initialRadius, Scalar.decimal]

theorem Restart.minRadius_eq : (minRadius : ℝ) = 1 / 10 ^ 6 := by
  norm_num [minRadius, Scalar.decimal]

/-- The first radius has shrunk to the least one after five calls. -/
theorem Problem.idle_calls_le (p : Problem ℝ) (optimizer : Optimizer ℝ) (initial : Values ℝ)
    (options : SolveOptions ℝ) : Calls.idle (p.calls optimizer initial options) ≤ 6 := by
  have hleast : Calls.shrunk (Restart.initialRadius : ℝ) 5 ≤ Restart.minRadius := by
    rw [Calls.shrunk_initialRadius, Restart.minRadius_eq]
    norm_num
  have hsolves := p.solves optimizer initial options
  generalize p.calls optimizer initial options = cs, p.solve optimizer initial options = r at hsolves ⊢
  cases hsolves with
  | uncompiled | unevaluated => exact Nat.zero_le 6
  | looped hcompile hcost hruns => exact hruns.idle_le 5 hleast

end Exact

/-- Every call of a solve starts from the latest values, with a radius that shrinks with the calls that change nothing,
and a solve that uses fewer calls than it may says why. In exact arithmetic the radius starts at ten thousand, shrinks a
hundredfold, and is least at a millionth, so at most six calls change nothing. -/
theorem Problem.solve_schedule :
    (∀ {α : Type} [Scalar α] (p : Problem α) (optimizer : Optimizer α) (initial : Values α) (options : SolveOptions α),
      p.FollowsSchedule optimizer initial options) ∧
    (∀ times, Calls.shrunk (Restart.initialRadius : ℝ) times = 10 ^ 4 / 100 ^ times) ∧
    (Restart.minRadius : ℝ) = 1 / 10 ^ 6 ∧
    ∀ (p : Problem ℝ) (optimizer : Optimizer ℝ) (initial : Values ℝ) (options : SolveOptions ℝ),
      Calls.idle (p.calls optimizer initial options) ≤ 6 :=
  ⟨followsSchedule, Calls.shrunk_initialRadius, Restart.minRadius_eq, idle_calls_le⟩

/-- Moves the point half of the way, whatever it is given. -/
def Optimizer.halfway : Optimizer Float := fun _ _ _ _ => .ok ⟨[("point", [0.5, 0, 1])]⟩

/-- Once the point was moved, nothing changes any more, and the loop ends when the radius is least. -/
theorem Problem.solve_schedule_offAxis :
    (∃ start c, Problem.offAxis.IsStart .offAxis start ∧
      (Problem.offAxis.calls .halfway .offAxis .default)[2]? = some c ∧
      c.params = Calls.latest start ((Problem.offAxis.calls .halfway .offAxis .default).take 2) ∧
      c.radius = Calls.shrunk Restart.initialRadius 1) ∧
    ∃ sol c, Problem.offAxis.solve .halfway .offAxis .default = .ok sol ∧
      (Problem.offAxis.calls .halfway .offAxis .default).getLast? = some c ∧ ¬c.Changes ∧
      c.radius ≤ Restart.minRadius := by
  obtain ⟨-, -, hcall, hended⟩ := solve_schedule.1 Problem.offAxis .halfway .offAxis .default
  constructor
  · have hthird : (Problem.offAxis.calls .halfway .offAxis .default)[2]?.isSome = true := by decide +kernel
    have hidle : Calls.idle ((Problem.offAxis.calls .halfway .offAxis .default).take 2) = 1 := by decide +kernel
    obtain ⟨c, hc⟩ := Option.isSome_iff_exists.1 hthird
    obtain ⟨_, start, -, hstart, -, hparams, hradius⟩ := hcall 2 c hc
    exact ⟨start, c, hstart, hc, hparams, hidle ▸ hradius⟩
  · have hfinal : (Problem.offAxis.solve .halfway .offAxis .default).toOption.map
        (fun sol => decide (SolveOptions.default.stopping.minError < sol.finalCost)) = some true := by decide +kernel
    have hspare : (Problem.offAxis.calls .halfway .offAxis .default).length < 16 := by decide +kernel
    have hlast : (Problem.offAxis.calls .halfway .offAxis .default).getLast?.map Call.changes = some false := by
      decide +kernel
    cases hsol : Problem.offAxis.solve .halfway .offAxis .default with
    | error e => rw [hsol] at hfinal; cases hfinal
    | ok sol =>
      rw [hsol] at hfinal
      cases hended sol hsol hspare with
      | small hcost => exact absurd (of_decide_eq_true (Option.some.inj hfinal)) hcost
      | @stuck c hlastc hidle hradius => exact ⟨sol, c, rfl, hlastc, hidle, hradius⟩
      | settled hlastc hchanges =>
        rw [hlastc] at hlast
        exact absurd (Call.changes_eq_true.2 hchanges) (by rw [Option.some.inj hlast]; decide)

end MultiView
