import MultiView.Proofs.Solver.Kept

/-!
# Optimizers that move values

A move changes values by their names, and nothing more the second time (`Move`). An optimizer that answers with the
moved values (`Optimizer.moving`) keeps what the move keeps (`Problem.callsKeep_moving`). After a solve every value is
as it was or moved (`Problem.moves_of_solve`), and if the initial cost is not small already, it is moved
(`Problem.get?_of_solve_moving`).
-/

namespace MultiView

variable {α : Type}

/-! ## Moves -/

/-- A change of values, by their names, that keeps lengths and is done the first time. -/
structure Move (α : Type) where
  value : String → List α → List α
  length_value : ∀ name x, (value name x).length = x.length
  value_value : ∀ name x, value name (value name x) = value name x

namespace Move

/-- Change nothing. -/
def none : Move α := ⟨fun _ x => x, fun _ _ => rfl, fun _ _ => rfl⟩

/-- Write an entry of the value of a name. -/
def write (name : String) (i : Nat) (a : α) : Move α where
  value n x := if n = name then x.set i a else x
  length_value n x := by split <;> simp
  value_value n x := by split <;> simp

variable {m : Move α}

theorem value_write {name : String} {i : Nat} {a : α} (x : List α) : (write name i a).value name x = x.set i a :=
  if_pos rfl

theorem value_write_of_ne {name n : String} {i : Nat} {a : α} (h : n ≠ name) (x : List α) :
    (write name i a).value n x = x := if_neg h

/-- Is a value the one before, or that one moved? -/
def Moves (m : Move α) (name : String) (before after : List α) : Prop := after = before ∨ after = m.value name before

theorem Moves.refl (name : String) (x : List α) : m.Moves name x x := .inl rfl

theorem Moves.trans {name : String} {x y z : List α} (h : m.Moves name x y) (h' : m.Moves name y z) :
    m.Moves name x z := by
  rcases h with rfl | rfl
  · exact h'
  · rcases h' with rfl | rfl
    · exact .inr rfl
    · exact .inr (m.value_value name x)

/-- A value that was moved stays. -/
theorem Moves.eq_of_moved {name : String} {x y : List α} (h : m.Moves name (m.value name x) y) :
    y = m.value name x := by
  rcases h with rfl | rfl
  · rfl
  · exact m.value_value name x

end Move

/-- The moved value of a name. -/
def Values.moved (values : Values α) (m : Move α) (name : String) : Option (List α) :=
  (values.get? name).map (m.value name)

/-! ## Answers -/

/-- Return the values that were given, moved. -/
def Optimizer.moving (m : Move α) : Optimizer α := fun compiled values _ _ =>
  .ok ⟨compiled.unknowns.filterMap fun u => (values.get? u.name).map fun x => (u.name, m.value u.name x)⟩

/-- Return what was given. -/
abbrev Optimizer.still : Optimizer α := .moving .none

section Answers

variable {m : Move α} {compiled : Compiled α} {values solved : Values α} {radius : α} {stopping : Stopping α}

theorem Optimizer.mem_moving (h : Optimizer.moving m compiled values radius stopping = .ok solved)
    {e : String × List α} : e ∈ solved.entries ↔
      ∃ u ∈ compiled.unknowns, ∃ x, values.get? u.name = some x ∧ (u.name, m.value u.name x) = e := by
  obtain rfl := Except.ok.inj h
  simp only [List.mem_filterMap, Option.map_eq_some_iff]

/-- The answer merged into what was given. -/
theorem Optimizer.get?_merge_moving (h : Optimizer.moving m compiled values radius stopping = .ok solved)
    {u : Unknown α} (hu : u ∈ compiled.unknowns) :
    (values.merge solved).get? u.name = values.moved m u.name := by
  have hmoved : ∀ e ∈ solved.entries.reverse, values.moved m e.1 = some e.2 := by
    intro e he
    obtain ⟨u', -, x, hx, rfl⟩ := (mem_moving h).1 (List.mem_reverse.1 he)
    rw [Values.moved, hx, Option.map_some]
  rw [Assoc.get?_merge, Assoc.lookup_of_forall hmoved]
  cases hx : values.get? u.name with
  | none => simp [Values.moved, hx]
  | some x =>
    have hentry : (u.name, m.value u.name x) ∈ solved.entries.reverse :=
      List.mem_reverse.2 ((mem_moving h).2 ⟨u, hu, x, hx, rfl⟩)
    rw [if_pos (List.mem_map_of_mem hentry), Values.moved, hx]
    rfl

theorem Call.keeps_of_moving {c : Call α} {R : String → List α → List α → Prop}
    (hanswer : c.answer = Optimizer.moving m compiled c.params c.radius stopping)
    (h : ∀ u ∈ compiled.unknowns, ∀ x, R u.name x (m.value u.name x)) : c.Keeps R := by
  intro solved hsolved e he
  obtain ⟨u, hu, x, hx, rfl⟩ := (Optimizer.mem_moving (hanswer.symm.trans hsolved)).1 he
  exact ⟨x, hx, h u hu x⟩

end Answers

/-! ## Loops -/

variable [Scalar α]

namespace Restart

variable {p : Problem α} {stopping : Stopping α} {m : Move α} {compiled : Compiled α}

/-- After the first answer, every value is moved: an answer is only passed over where it changes nothing. -/
theorem Step.moved [LawfulBEq α] {s t : Progress α} {solved : Values α} {again : Bool}
    (h : Step p stopping.minRelDecrease s solved t again)
    (hsolved : Optimizer.moving m compiled s.params s.radius stopping = .ok solved) {u : Unknown α}
    (hu : u ∈ compiled.unknowns) : t.params.get? u.name = s.params.moved m u.name := by
  have hsame : differs s.params solved = false →
      s.params.get? u.name = s.params.moved m u.name := by
    intro hsame
    rw [Values.moved]
    cases hx : s.params.get? u.name with
    | none => rfl
    | some x =>
      have hentry := (Optimizer.mem_moving hsolved).2 ⟨u, hu, x, hx, rfl⟩
      have hstays := List.any_eq_false.1 hsame _ hentry
      simp only [hx, Bool.not_eq_true, Bool.not_eq_false', beq_iff_eq] at hstays
      exact hstays
  cases h with
  | changed hdiffers hcost => exact Optimizer.get?_merge_moving hsolved hu
  | shrunk h hradius => exact hsame h
  | stuck h hradius => exact hsame h

/-- A loop that asks at all ends with the moved values. -/
theorem Runs.moved [LawfulBEq α] {fuel : Nat} {s t : Progress α} {cs : List (Call α)}
    (h : Runs p (fun v r => Optimizer.moving m compiled v r stopping) stopping (fuel + 1) s cs (.ok t))
    (hcost : stopping.minError < s.cost) {u : Unknown α} (hu : u ∈ compiled.unknowns) :
    t.params.get? u.name = s.params.moved m u.name := by
  cases h with
  | small hsmall => exact absurd hcost hsmall
  | last _ hask h => exact h.moved hask hu
  | next _ hask h hrest =>
    have hkeeps := fun c hc => Call.keeps_of_moving (R := m.Moves) (hrest.answer c hc) fun u _ x => .inr rfl
    have hrelated := hrest.related Move.Moves.refl (fun _ _ _ _ => Move.Moves.trans) hkeeps t rfl u.name
    rw [h.moved hask hu] at hrelated
    rw [Values.moved] at hrelated ⊢
    -- what the first answer moved, later answers leave
    cases hx : s.params.get? u.name with
    | none =>
      rw [hx] at hrelated
      generalize t.params.get? u.name = y at hrelated
      cases hrelated
      rfl
    | some x =>
      rw [hx] at hrelated
      generalize t.params.get? u.name = y at hrelated
      cases hrelated with
      | some hmoves => exact congrArg some hmoves.eq_of_moved

end Restart

/-! ## Solves -/

namespace Problem

variable {p : Problem α} {initial : Values α} {options : SolveOptions α} {m : Move α} {sol : Solution α}

/-- What holds between all values and the moved ones is kept by an optimizer that moves them. -/
theorem callsKeep_moving {R : Compiled α → String → List α → List α → Prop}
    (h : ∀ compiled start, p.compile initial = .ok (compiled, start) →
      ∀ u ∈ compiled.unknowns, ∀ x, R compiled u.name x (m.value u.name x)) :
    p.CallsKeep (.moving m) initial options R := by
  intro compiled start hcompile c hc
  obtain ⟨compiled', start', hcompile', hanswer⟩ := exists_compile_of_mem_calls hc
  rw [hcompile] at hcompile'
  cases hcompile'
  exact Call.keeps_of_moving hanswer (h compiled start hcompile)

theorem callsKeepLengths_moving : p.CallsKeepLengths (.moving m) initial options :=
  callsKeep_moving fun _ _ _ u _ x => m.length_value u.name x

theorem callsKeep_still {R : Compiled α → String → List α → List α → Prop}
    (hrefl : ∀ compiled name x, R compiled name x x) : p.CallsKeep .still initial options R :=
  callsKeep_moving fun compiled _ _ u _ x => hrefl compiled u.name x

/-- The initial cost that a solution reports is that of the initial values. -/
theorem initialCost_of_solve {optimizer : Optimizer α} (h : p.solve optimizer initial options = .ok sol) :
    p.cost initial = .ok sol.initialCost := by
  obtain ⟨compiled, start, cost, t, hcompile, hcost, -, rfl⟩ := exists_runs_of_solve h
  exact (isStart_of_compile hcompile).cost ▸ hcost

/-- Where the initial cost is not small already, every block ends with its moved value. -/
theorem get?_of_solve_moving [LawfulBEq α] (h : p.solve (.moving m) initial options = .ok sol)
    (hlarge : options.stopping.minError < sol.initialCost) {b : ParamBlock α} (hb : b ∈ p.params) :
    sol.params.get? b.name = initial.moved m b.name := by
  obtain ⟨compiled, start, cost, t, hcompile, hcost, hruns, rfl⟩ := exists_runs_of_solve h
  obtain ⟨hunknowns, -⟩ := standsFor_of_compile hcompile
  obtain ⟨u, hu, hstands⟩ := exists_of_mem_right hunknowns.flip hb
  have hmoved := hruns.moved hlarge hu
  rw [hstands.name] at hmoved
  have hstart := isStart_of_compile hcompile b.name
  rw [if_pos (List.mem_map_of_mem hb)] at hstart
  rw [Values.moved, ← hstart]
  exact hmoved

end Problem

end MultiView
