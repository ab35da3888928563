/-!
# Sets of fixed positions

A finite set of positions of a parameter block that are held constant, kept as an ascending list, so that equal sets
are equal values. `isFixed` is membership (`isFixed_ofList`), and `isAllFixed` asks for every position of a block
(`isAllFixed_iff`) without listing the positions of the block, which may be many.
-/

namespace MultiView

@[ext] structure FixedMask where
  indices : List Nat
  ascending : indices.Pairwise (· < ·)

namespace FixedMask

/-! ## Ascending lists -/

/-- Insert a number into an ascending list, unless it is there. -/
def insertInto (i : Nat) : List Nat → List Nat
  | [] => [i]
  | j :: js => if i < j then i :: j :: js else if i = j then j :: js else j :: insertInto i js

theorem mem_insertInto {i k : Nat} {js : List Nat} : k ∈ insertInto i js ↔ k = i ∨ k ∈ js := by
  induction js with
  | nil => simp [insertInto]
  | cons j js ih => grind [insertInto]

theorem pairwise_insertInto {i : Nat} {js : List Nat} (h : js.Pairwise (· < ·)) :
    (insertInto i js).Pairwise (· < ·) := by
  induction js with
  | nil => simp [insertInto]
  | cons j js ih =>
    rw [List.pairwise_cons] at h
    unfold insertInto
    split
    · exact List.pairwise_cons.2 ⟨by grind, List.pairwise_cons.2 h⟩
    · split
      · exact List.pairwise_cons.2 h
      · exact List.pairwise_cons.2 ⟨fun k hk => by grind [mem_insertInto], ih h.2⟩

/-- Does an ascending list, of numbers from `i` on, hold all numbers from `i` up to `dim`? -/
def coversFrom : (js : List Nat) → (i dim : Nat) → Bool
  | [], i, dim => decide (dim ≤ i)
  | j :: js, i, dim => decide (dim ≤ i) || (decide (j = i) && coversFrom js (i + 1) dim)

theorem coversFrom_iff {js : List Nat} {i dim : Nat} (h : js.Pairwise (· < ·)) (hi : ∀ j ∈ js, i ≤ j) :
    coversFrom js i dim = true ↔ ∀ k, i ≤ k → k < dim → k ∈ js := by
  induction js generalizing i with
  | nil => simp only [coversFrom, decide_eq_true_eq, List.not_mem_nil]; grind
  | cons j js ih =>
    rw [List.pairwise_cons] at h
    have ih := ih (i := i + 1) h.2
    by_cases hj : j = i
    · subst hj
      have hlater : ∀ k ∈ js, j + 1 ≤ k := fun k hk => h.1 k hk
      simp only [coversFrom, decide_true, Bool.true_and, Bool.or_eq_true, decide_eq_true_eq, ih hlater,
        List.mem_cons]
      grind
    · have hij : i < j := Nat.lt_of_le_of_ne (hi j List.mem_cons_self) (Ne.symm hj)
      simp only [coversFrom, hj, decide_false, Bool.false_and, Bool.or_false, decide_eq_true_eq]
      refine ⟨fun hd k _ _ => by omega, fun hall => Nat.not_lt.1 fun hd => ?_⟩
      rcases List.mem_cons.1 (hall i (Nat.le_refl i) hd) with rfl | hm
      · exact hj rfl
      · exact absurd (h.1 i hm) (by omega)

/-! ## Masks -/

/-- Nothing is fixed. -/
def free : FixedMask := ⟨[], .nil⟩

/-- Every position below `dim` is fixed. -/
def all (dim : Nat) : FixedMask := ⟨List.range dim, List.pairwise_lt_range⟩

/-- The set with one more position. -/
def insert (i : Nat) (m : FixedMask) : FixedMask := ⟨insertInto i m.indices, pairwise_insertInto m.ascending⟩

/-- The positions of a list. -/
def ofList (is : List Nat) : FixedMask := is.foldr insert free

def isFixed (m : FixedMask) (i : Nat) : Bool := m.indices.contains i

/-- Is every position below `dim` fixed? -/
def isAllFixed (m : FixedMask) (dim : Nat) : Bool := coversFrom m.indices 0 dim

def isEmpty (m : FixedMask) : Bool := m.indices.isEmpty

@[simp] theorem isFixed_free (i : Nat) : free.isFixed i = false := rfl

@[simp] theorem isFixed_all {dim i : Nat} : (all dim).isFixed i = true ↔ i < dim := by simp [isFixed, all]

theorem isFixed_insert {m : FixedMask} {i k : Nat} :
    (m.insert i).isFixed k = true ↔ k = i ∨ m.isFixed k = true := by simp [isFixed, insert, mem_insertInto]

theorem isFixed_ofList {is : List Nat} {k : Nat} : (ofList is).isFixed k = true ↔ k ∈ is := by
  induction is with
  | nil => simp [ofList]
  | cons i is ih =>
    rw [ofList, List.foldr_cons, isFixed_insert, List.mem_cons]
    exact or_congr Iff.rfl ih

theorem isAllFixed_iff {m : FixedMask} {dim : Nat} :
    m.isAllFixed dim = true ↔ ∀ i < dim, m.isFixed i = true := by
  rw [isAllFixed, coversFrom_iff m.ascending fun j _ => Nat.zero_le j]
  simp [isFixed]

end FixedMask

end MultiView
