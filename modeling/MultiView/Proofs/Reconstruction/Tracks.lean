import Mathlib
import MultiView.Reconstruction.Basic

/-!
# Lengths of tracks

The track length of a point is the number of its observations. An observation is usable if the track of its point is
long enough (`usable`); there are as many usable observations as long enough tracks have together
(`length_filter_usable`), and as many observations as all tracks (`sum_trackLengths`).
-/

namespace MultiView

variable {α : Type}

/-- Is the track of an observation's point long enough? -/
def usable (asked : Nat) (tracks : List Nat) (o : Observation α) : Bool :=
  decide (leastTrack asked ≤ tracks.getD o.point 0)

theorem length_trackLengths (n : Nat) (os : List (Observation α)) : (trackLengths n os).length = n := by
  simp [trackLengths]

theorem trackLengths_getElem? {n i : Nat} (hi : i < n) (os : List (Observation α)) :
    (trackLengths n os)[i]? = some (os.countP fun o => o.point = i) := by
  simp [trackLengths, hi]

/-- How often a number is in a list, counted place by place. -/
theorem sum_map_ite_eq_count (i : Nat) (js : List Nat) :
    (js.map fun j => if i = j then 1 else 0).sum = js.count i := by
  induction js with
  | nil => rfl
  | cons j js ih =>
    rw [List.map_cons, List.sum_cons, ih, List.count_cons, Nat.add_comm]
    simp only [beq_iff_eq, @eq_comm Nat i j]

/-- Observations of points of a property, counted point by point. -/
theorem countP_eq_sum {n : Nat} (q : Nat → Bool) {os : List (Observation α)} (hos : ∀ o ∈ os, o.point < n) :
    os.countP (fun o => q o.point) =
      (((List.range n).filter q).map fun i => os.countP fun o => o.point = i).sum := by
  induction os with
  | nil => simp
  | cons o os ih =>
    -- one more observation counts at the place of its point only
    have hcount : ((List.range n).filter q).count o.point = if q o.point then 1 else 0 := by
      have hmem : o.point ∈ List.range n := List.mem_range.2 (hos o List.mem_cons_self)
      split
      · next hq => rw [List.count_filter hq, List.nodup_range.count, if_pos hmem]
      · next hq => exact List.count_eq_zero.2 fun h => hq (List.mem_filter.1 h).2
    simp only [List.countP_cons, decide_eq_true_eq]
    rw [ih fun o ho => hos o (List.mem_cons_of_mem _ ho), List.sum_map_add, sum_map_ite_eq_count, hcount]

theorem sum_trackLengths {n : Nat} {os : List (Observation α)} (hos : ∀ o ∈ os, o.point < n) :
    (trackLengths n os).sum = os.length := by
  have hcount := countP_eq_sum (fun _ => true) hos
  rw [List.countP_true, List.filter_true] at hcount
  exact hcount.symm

theorem length_filter_usable {n asked : Nat} {os : List (Observation α)} (hos : ∀ o ∈ os, o.point < n) :
    (os.filter (usable asked (trackLengths n os))).length =
      ((trackLengths n os).filter fun length => leastTrack asked ≤ length).sum := by
  let count : Nat → Nat := fun i => os.countP fun o => o.point = i
  have husable : ∀ o ∈ os, usable asked (trackLengths n os) o = decide (leastTrack asked ≤ count o.point) := by
    intro o ho
    rw [usable, List.getD_eq_getElem?_getD, trackLengths_getElem? (hos o ho)]
    rfl
  rw [List.filter_congr husable, ← List.countP_eq_length_filter,
    countP_eq_sum (fun i => decide (leastTrack asked ≤ count i)) hos, trackLengths, List.filter_map]
  rfl

end MultiView
