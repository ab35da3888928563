import Mathlib.Data.List.Induction
import MultiView.Proofs.Solver.Compiled

/-!
# Intervals of compiled problems

A parameter block may hold any number of bounds, a compiled unknown one interval for each position. Bounds are
registered in order and each replaces the one before (`Intervals.get?_ofBounds_concat`), so the optimizer keeps an entry
in the interval of its last bound (`ParamBlock.allows_ofBounds`). It allows all that the bounds of the block admit, and
more unless the last bound admits no more than each other bound on the same position (`Problem.compile_intervals`):
where an earlier bound is tighter, it is lost (`Problem.compile_loses_bound`).
-/

namespace MultiView

variable {α : Type}

/-! ## Registered intervals -/

/-- The bounds of a block on one of its positions, in order. -/
def ParamBlock.boundsAt (b : ParamBlock α) (i : Nat) : List (Bound α) := (b.bounds.getD []).filter (·.index = i)

/-- One more bound replaces what is registered for its position. -/
theorem Intervals.get?_ofBounds_concat (bounds : List (Bound α)) (bound : Bound α) (i : Nat) :
    (ofBounds (bounds ++ [bound])).get? i =
      if i = bound.index then some ⟨bound.lower, bound.upper⟩ else (ofBounds bounds).get? i := by
  rw [ofBounds, List.map_append, List.map_singleton, Assoc.ofList, List.foldl_append, List.foldl_cons, List.foldl_nil]
  exact Assoc.get?_insert _ _ _ _

/-- What is registered for a position is the last bound on it. -/
theorem Intervals.get?_ofBounds (bounds : List (Bound α)) (i : Nat) :
    (ofBounds bounds).get? i = (bounds.filter (·.index = i)).getLast?.map fun bound => ⟨bound.lower, bound.upper⟩ := by
  induction bounds using List.reverseRecOn with
  | nil => rfl
  | append_singleton bounds bound ih =>
    rw [get?_ofBounds_concat, List.filter_append]
    split
    · next h => simp [h]
    · next h => simp [Ne.symm h, ih]

theorem ParamBlock.intervals_of_compile {b : ParamBlock α} {initial : Values α} {u : Unknown α × String × List α}
    (h : b.compile initial = .ok u) : u.1.intervals = Intervals.ofBounds (b.bounds.getD []) := by
  simp only [compile, bind_eq_ok, exists_unit, pure_eq_ok] at h
  obtain ⟨x, -, -, manifold, -, rfl⟩ := h
  rfl

variable [Scalar α]

/-- Is a number between the ends of a bound? -/
def Bound.Admits (bound : Bound α) (x : α) : Prop := bound.lower ≤ x ∧ x ≤ bound.upper

/-- Does a number satisfy every bound of a block on a position? -/
def ParamBlock.Allows (b : ParamBlock α) (i : Nat) (x : α) : Prop :=
  ∀ bound ∈ b.bounds.getD [], bound.index = i → bound.Admits x

/-- Is a number in the interval of a position, if it has one? -/
def Intervals.Allows (intervals : Intervals α) (i : Nat) (x : α) : Prop :=
  ∀ interval, intervals.get? i = some interval → interval.lower ≤ x ∧ x ≤ interval.upper

theorem ParamBlock.allows_iff {b : ParamBlock α} {i : Nat} {x : α} :
    b.Allows i x ↔ ∀ bound ∈ b.boundsAt i, bound.Admits x := by
  simp only [Allows, boundsAt, List.mem_filter, decide_eq_true_eq, and_imp]

/-- A number is allowed exactly if the last bound on the position admits it. -/
theorem ParamBlock.allows_ofBounds {b : ParamBlock α} {i : Nat} {x : α} :
    (Intervals.ofBounds (b.bounds.getD [])).Allows i x ↔ ∀ last ∈ (b.boundsAt i).getLast?, last.Admits x := by
  rw [Intervals.Allows, Intervals.get?_ofBounds, ← boundsAt]
  cases (b.boundsAt i).getLast? <;> simp [Bound.Admits]

/-! ## Compiled problems -/

/-- How the interval of an unknown at a position relates to the bounds of its block there. -/
structure Unknown.KeptBy (u : Unknown α) (b : ParamBlock α) (i : Nat) : Prop where
  last : ∀ x, u.intervals.Allows i x ↔ ∀ last ∈ (b.boundsAt i).getLast?, last.Admits x
  complete : ∀ x, b.Allows i x → u.intervals.Allows i x
  sound_iff : (∀ x, u.intervals.Allows i x ↔ b.Allows i x) ↔
    ∀ last ∈ (b.boundsAt i).getLast?, ∀ bound ∈ b.boundsAt i, ∀ x, last.Admits x → bound.Admits x

theorem Unknown.keptBy_of_intervals {u : Unknown α} {b : ParamBlock α} {i : Nat}
    (h : u.intervals = Intervals.ofBounds (b.bounds.getD [])) : u.KeptBy b i := by
  have hlast : ∀ x, u.intervals.Allows i x ↔ ∀ last ∈ (b.boundsAt i).getLast?, last.Admits x := fun x => by
    rw [h, ParamBlock.allows_ofBounds]
  have hcomplete : ∀ x, b.Allows i x → u.intervals.Allows i x := fun x hx =>
    (hlast x).2 fun last hmem => ParamBlock.allows_iff.1 hx last (List.mem_of_getLast? hmem)
  refine ⟨hlast, hcomplete, fun hall last hmem bound hbound x hx => ?_, fun hall x => ⟨fun hx => ?_, hcomplete x⟩⟩
  · have hallowed : u.intervals.Allows i x := (hlast x).2 fun last' hmem' => by
      rwa [Option.mem_unique hmem' hmem]
    exact ParamBlock.allows_iff.1 ((hall x).1 hallowed) bound hbound
  · refine ParamBlock.allows_iff.2 fun bound hbound => ?_
    -- where there is a bound there is a last one
    have hmem := List.getLast?_eq_some_getLast (List.ne_nil_of_mem hbound)
    exact hall _ hmem bound hbound x ((hlast x).1 hx _ hmem)

theorem Problem.intervals_of_compile {p : Problem α} {initial start : Values α} {compiled : Compiled α}
    (h : p.compile initial = .ok (compiled, start)) :
    List.Forall₂ (fun b u => u.intervals = Intervals.ofBounds (b.bounds.getD [])) p.params compiled.unknowns := by
  simp only [compile, bind_eq_ok, exists_unit, pure_eq_ok, Prod.mk.injEq] at h
  obtain ⟨-, us, hus, ts, -, rfl, -⟩ := h
  rw [List.forall₂_map_right_iff]
  exact (mapM_eq_ok.1 hus).imp fun b u => ParamBlock.intervals_of_compile

namespace Problem

/-- In a compiled problem, the last bound on a position decides. All that the bounds admit is allowed, and no more is
allowed exactly if the last bound admits no more than each of the others. -/
theorem compile_intervals {p : Problem α} {initial start : Values α} {compiled : Compiled α}
    (h : p.compile initial = .ok (compiled, start)) :
    List.Forall₂ (fun b u => ∀ i, u.KeptBy b i) p.params compiled.unknowns :=
  (intervals_of_compile h).imp fun _ _ hintervals _ => Unknown.keptBy_of_intervals hintervals

/-- A point that moves along one axis before a camera, within bounds. -/
def slidingPoint (bounds : List (Bound Float)) : Problem Float :=
  ((empty.addParam "point" 3 .euclidean (.ofList [1, 2]) (some bounds)).addParam "cam" 3 .euclidean (.all 3)
    none).addResidual (.make (.fixedPose .simplePinhole .one ⟨3, 0⟩) [0, 1] .none)

def slidingPointValues : Values Float := ⟨[("point", [0, 0, 1]), ("cam", [1, 0, 0])]⟩

/-- What the sliding point is compiled to. -/
def slidingPointCompiled (bounds : List (Bound Float)) : Compiled Float where
  unknowns := [⟨"point", none, .ofList [1, 2], .ofBounds bounds⟩, ⟨"cam", none, .all 3, .ofBounds []⟩]
  terms := [⟨2, ["point", "cam"], .fixedPose .simplePinhole .one ⟨3, 0⟩, .none⟩]

/-- With one bound on each position none is lost. Of two bounds on one position, the last allows what the other does
not. -/
theorem compile_intervals_slidingPoint :
    ((slidingPoint [⟨0, 0, 1⟩, ⟨1, 0, 0⟩]).compile slidingPointValues =
        .ok (slidingPointCompiled [⟨0, 0, 1⟩, ⟨1, 0, 0⟩], slidingPointValues) ∧
      ∀ u ∈ (slidingPointCompiled [⟨0, 0, 1⟩, ⟨1, 0, 0⟩]).unknowns.head?,
        ∀ b ∈ (slidingPoint [⟨0, 0, 1⟩, ⟨1, 0, 0⟩]).params.head?, ∀ x, u.intervals.Allows 0 x ↔ b.Allows 0 x) ∧
    (slidingPoint [⟨0, 0, 1⟩, ⟨0, 0, 2⟩]).compile slidingPointValues =
        .ok (slidingPointCompiled [⟨0, 0, 1⟩, ⟨0, 0, 2⟩], slidingPointValues) ∧
      ∀ u ∈ (slidingPointCompiled [⟨0, 0, 1⟩, ⟨0, 0, 2⟩]).unknowns.head?, u.intervals.Allows 0 2 := by
  have honce : (slidingPoint [⟨0, 0, 1⟩, ⟨1, 0, 0⟩]).compile slidingPointValues =
      .ok (slidingPointCompiled [⟨0, 0, 1⟩, ⟨1, 0, 0⟩], slidingPointValues) := rfl
  have htwice : (slidingPoint [⟨0, 0, 1⟩, ⟨0, 0, 2⟩]).compile slidingPointValues =
      .ok (slidingPointCompiled [⟨0, 0, 1⟩, ⟨0, 0, 2⟩], slidingPointValues) := rfl
  have hkept := (List.forall₂_cons.1 (compile_intervals honce)).1 0
  have hkept' := (List.forall₂_cons.1 (compile_intervals htwice)).1 0
  refine ⟨⟨honce, fun u hu b hb => ?_⟩, htwice, fun u hu => ?_⟩
  · obtain rfl := Option.some.inj hu
    obtain rfl := Option.some.inj hb
    refine hkept.sound_iff.2 fun last hlast bound hbound x hx => ?_
    obtain rfl := Option.some.inj hlast
    obtain rfl := List.mem_singleton.1 hbound
    exact hx
  · obtain rfl := Option.some.inj hu
    refine (hkept'.last 2).2 fun last hlast => ?_
    obtain rfl := Option.some.inj hlast
    exact ⟨by decide +kernel, by decide +kernel⟩

/-- A bound is lost in compilation if a wider one on the same position follows. -/
theorem compile_loses_bound : ¬∀ (p : Problem Float) (initial start : Values Float) (compiled : Compiled Float),
    p.compile initial = .ok (compiled, start) →
      List.Forall₂ (fun b u => ∀ i x, u.intervals.Allows i x ↔ b.Allows i x) p.params compiled.unknowns := by
  intro hall
  have hcompile : (slidingPoint [⟨0, 0, 1⟩, ⟨0, 0, 2⟩]).compile slidingPointValues =
      .ok (slidingPointCompiled [⟨0, 0, 1⟩, ⟨0, 0, 2⟩], slidingPointValues) := rfl
  have hpoint := (List.forall₂_cons.1 (hall _ _ _ _ hcompile)).1 0 2
  -- the second bound admits its own end, and the first one does not
  have hadmits := hpoint.1 fun interval hinterval => by
    obtain rfl : ⟨0, 2⟩ = interval := Option.some.inj hinterval
    exact ⟨by decide +kernel, by decide +kernel⟩
  have hfirst : (2 : Float) ≤ 1 := (hadmits ⟨0, 0, 1⟩ (by simp) rfl).2
  exact absurd hfirst (by decide +kernel)

end Problem

end MultiView
