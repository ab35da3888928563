import Mathlib.Data.List.Forall2
import MultiView.Check

/-!
# What passed checks say

A sequence of checks passes exactly when each of its checks does (`bind_eq_ok`, `forM_eq_ok`, `checkEach_eq_ok`), and a
list is mapped without error exactly when each of its elements is (`mapM_eq_ok`, `exists_mapM_eq_ok`). The error of a
sequence is that of the first of its parts that fails (`bind_eq_error`, `mapM_eq_error`, `zipIdx_mapM_eq_error`,
`forM_eq_error`, `checkEach_eq_error`), which is the first that a scan for good elements does not pass (`Reaches`).
-/

namespace MultiView

variable {ε ε' σ τ υ : Type}

/-! ## One computation after another -/

@[simp] theorem ok_bind (x : σ) (f : σ → Except ε τ) : (Except.ok x >>= f) = f x := rfl

@[simp] theorem error_bind (e : ε) (f : σ → Except ε τ) : (Except.error e >>= f) = .error e := rfl

@[simp] theorem pure_eq_ok {x y : τ} : (pure x : Except ε τ) = .ok y ↔ x = y := by simp [pure, Except.pure]

@[simp] theorem bind_eq_ok {x : Except ε σ} {f : σ → Except ε τ} {y : τ} :
    (x >>= f) = .ok y ↔ ∃ v, x = .ok v ∧ f v = .ok y := by
  cases x <;> simp

/-- A check has one result only. -/
@[simp] theorem exists_unit {P : Unit → Prop} : (∃ u, P u) ↔ P () := ⟨fun ⟨_, h⟩ => h, fun h => ⟨(), h⟩⟩

@[simp] theorem map_eq_ok {x : Except ε σ} {f : σ → τ} {y : τ} : f <$> x = .ok y ↔ ∃ v, x = .ok v ∧ f v = y := by
  cases x <;> simp [Functor.map, Except.map]

@[simp] theorem mapError_eq_ok {x : Except ε τ} {f : ε → ε'} {y : τ} : x.mapError f = .ok y ↔ x = .ok y := by
  cases x <;> simp [Except.mapError]

/-! ## Single checks -/

@[simp] theorem require_eq_ok {c : Prop} [Decidable c] {e : ε} {u : Unit} : require c e = .ok u ↔ c := by
  unfold require; split <;> simp [*]

@[simp] theorem orFail_eq_ok {e : ε} {o : Option τ} {x : τ} : orFail e o = .ok x ↔ o = some x := by
  cases o <;> simp [orFail]

/-! ## Checks of lists -/

@[simp] theorem forM_eq_ok {f : τ → Except ε Unit} {xs : List τ} {u : Unit} :
    forM xs f = .ok u ↔ ∀ x ∈ xs, f x = .ok u := by
  induction xs with
  | nil => simp
  | cons x xs ih => simp [ih]

/-- All elements pass their checks, each at its position. -/
theorem checkEach_eq_ok {check : Nat → τ → Except ε Unit} {start : Nat} {xs : List τ} {u : Unit} :
    checkEach check start xs = .ok u ↔ ∀ i x, xs[i]? = some x → check (start + i) x = .ok () := by
  induction xs generalizing start with
  | nil => simp [checkEach]
  | cons x xs ih =>
    simp only [checkEach, bind_eq_ok, exists_unit, ih]
    constructor
    · rintro ⟨hx, hxs⟩ (_ | i) y hy
      · obtain rfl : x = y := by simpa using hy
        simpa using hx
      · rw [show start + (i + 1) = start + 1 + i by omega]
        exact hxs i y (by simpa using hy)
    · intro h
      refine ⟨by simpa using h 0 x rfl, fun i y hy => ?_⟩
      rw [show start + 1 + i = start + (i + 1) by omega]
      exact h (i + 1) y (by simpa using hy)

/-- Checks that do not look at positions. -/
theorem checkEach_eq_ok_of_mem {check : Nat → τ → Except ε Unit} {ok : τ → Prop}
    (h : ∀ i x, check i x = .ok () ↔ ok x) {start : Nat} {xs : List τ} {u : Unit} :
    checkEach check start xs = .ok u ↔ ∀ x ∈ xs, ok x := by
  rw [checkEach_eq_ok]
  simp only [h, List.mem_iff_getElem?]
  exact ⟨fun hall x ⟨i, hi⟩ => hall i x hi, fun hall i x hi => hall x ⟨i, hi⟩⟩

/-! ## Lists of results -/

theorem mapM_eq_ok {f : σ → Except ε τ} {xs : List σ} {ys : List τ} :
    xs.mapM f = .ok ys ↔ List.Forall₂ (fun x y => f x = .ok y) xs ys := by
  induction xs generalizing ys with
  | nil => simp
  | cons x xs ih =>
    simp only [List.mapM_cons, bind_eq_ok, pure_eq_ok, ih, List.forall₂_cons_left_iff]
    constructor
    · rintro ⟨y, hy, ys, hys, rfl⟩; exact ⟨y, ys, hy, hys, rfl⟩
    · rintro ⟨y, ys, hy, hys, rfl⟩; exact ⟨y, hy, ys, hys, rfl⟩

/-- The elements of a related list come from elements. -/
theorem exists_of_mem_right {R : σ → τ → Prop} {xs : List σ} {ys : List τ} (h : List.Forall₂ R xs ys) {y : τ}
    (hy : y ∈ ys) : ∃ x ∈ xs, R x y := by
  induction h with
  | nil => cases hy
  | @cons x _ xs _ hxy _ ih =>
    rcases List.mem_cons.1 hy with rfl | hy
    · exact ⟨x, List.mem_cons_self, hxy⟩
    · obtain ⟨x', hx', h'⟩ := ih hy
      exact ⟨x', List.mem_cons_of_mem _ hx', h'⟩

/-- An element has its result at its own place. -/
theorem exists_getElem?_right {R : σ → τ → Prop} {xs : List σ} {ys : List τ} (h : List.Forall₂ R xs ys) {i : Nat}
    {x : σ} (hx : xs[i]? = some x) : ∃ y, ys[i]? = some y ∧ R x y := by
  induction h generalizing i with
  | nil => simp at hx
  | cons hxy _ ih =>
    cases i with
    | zero =>
      obtain rfl := Option.some.inj hx
      exact ⟨_, rfl, hxy⟩
    | succ i => exact ih hx

/-- Each element has a result. -/
theorem exists_mapM_eq_ok {f : σ → Except ε τ} {xs : List σ} :
    (∃ ys, xs.mapM f = .ok ys) ↔ ∀ x ∈ xs, ∃ y, f x = .ok y := by
  induction xs with
  | nil => simp
  | cons x xs ih => simp [← ih]

/-- Only the results at the elements of a list count. -/
theorem mapM_congr {f g : σ → Except ε τ} {xs : List σ} (h : ∀ x ∈ xs, f x = g x) : xs.mapM f = xs.mapM g := by
  induction xs with
  | nil => rfl
  | cons x xs ih =>
    rw [List.mapM_cons, List.mapM_cons, h x List.mem_cons_self, ih fun y hy => h y (List.mem_cons_of_mem x hy)]

/-- Errors are translated one by one or all at once. -/
theorem mapM_mapError (f : σ → Except ε τ) (g : ε → ε') (xs : List σ) :
    (xs.mapM fun x => (f x).mapError g) = (xs.mapM f).mapError g := by
  induction xs with
  | nil => rfl
  | cons x xs ih =>
    rw [List.mapM_cons, List.mapM_cons, ih]
    cases f x <;> cases xs.mapM f <;> rfl

theorem forall₂_zipIdx {R : σ → τ → Prop} {xs : List σ} {ys : List τ} :
    List.Forall₂ (fun x y => R x.1 y) xs.zipIdx ys ↔ List.Forall₂ R xs ys := by
  rw [← List.forall₂_map_left_iff (f := Prod.fst), List.zipIdx_map_fst]

/-! ## First errors -/

theorem bind_eq_error {x : Except ε σ} {f : σ → Except ε τ} {e : ε} :
    (x >>= f) = .error e ↔ x = .error e ∨ ∃ v, x = .ok v ∧ f v = .error e := by
  cases x <;> simp

theorem mapError_eq_error {x : Except ε τ} {f : ε → ε'} {e' : ε'} :
    x.mapError f = .error e' ↔ ∃ e, x = .error e ∧ e' = f e := by
  cases x <;> simp [Except.mapError, eq_comm]

theorem map_eq_error {x : Except ε σ} {f : σ → τ} {e : ε} : f <$> x = .error e ↔ x = .error e := by
  cases x <;> simp [Functor.map, Except.map]

theorem require_eq_error {c : Prop} [Decidable c] {e e' : ε} : require c e = .error e' ↔ ¬c ∧ e' = e := by
  unfold require; split <;> simp [*, eq_comm]

theorem orFail_eq_error {e e' : ε} {o : Option τ} : orFail e o = .error e' ↔ o = none ∧ e' = e := by
  cases o <;> simp [orFail, eq_comm]

theorem pure_eq_error {x : τ} {e : ε} : (pure x : Except ε τ) = .error e ↔ False := by simp [pure, Except.pure]

/-- What is not an error is a result. -/
theorem exists_error_iff {x : Except ε τ} : (∃ e, x = .error e) ↔ ¬∃ y, x = .ok y := by
  cases x <;> simp

/-- The error of a mapped list is that of the first element without a result. -/
theorem mapM_eq_error {f : σ → Except ε τ} {xs : List σ} {e : ε} :
    xs.mapM f = .error e ↔
      ∃ (i : Nat) (x : σ), xs[i]? = some x ∧ (∀ (j : Nat) y, j < i → xs[j]? = some y → ∃ z, f y = .ok z) ∧
        f x = .error e := by
  induction xs with
  | nil => simp [pure_eq_error]
  | cons x xs ih =>
    rw [List.mapM_cons, bind_eq_error]
    constructor
    · rintro (hx | ⟨z, hz, hrest⟩)
      · exact ⟨0, x, rfl, by simp, hx⟩
      · rw [bind_eq_error] at hrest
        obtain hrest | ⟨zs, -, hnone⟩ := hrest
        · obtain ⟨i, y, hy, hbefore, he⟩ := ih.1 hrest
          refine ⟨i + 1, y, hy, fun j w hj hw => ?_, he⟩
          cases j with
          | zero => exact Option.some.inj hw ▸ ⟨z, hz⟩
          | succ j => exact hbefore j w (Nat.lt_of_succ_lt_succ hj) hw
        · exact (pure_eq_error.1 hnone).elim
    · rintro ⟨i, y, hy, hbefore, he⟩
      cases i with
      | zero => exact .inl (Option.some.inj hy ▸ he)
      | succ i =>
        obtain ⟨z, hz⟩ := hbefore 0 x (Nat.succ_pos i) rfl
        have hrest := ih.2 ⟨i, y, hy, fun j w hj hw => hbefore (j + 1) w (Nat.succ_lt_succ hj) hw, he⟩
        exact .inr ⟨z, hz, bind_eq_error.2 (.inl hrest)⟩

theorem getElem?_zipIdx_eq_some {xs : List σ} {i j : Nat} {x : σ} :
    xs.zipIdx[i]? = some (x, j) ↔ xs[i]? = some x ∧ i = j := by
  rw [List.getElem?_zipIdx, Nat.zero_add, Option.map_eq_some_iff]
  simp only [Prod.mk.injEq]
  constructor
  · rintro ⟨_, hx, rfl, rfl⟩; exact ⟨hx, rfl⟩
  · rintro ⟨hx, rfl⟩; exact ⟨x, hx, rfl, rfl⟩

/-- The same where each element is mapped together with its position. -/
theorem zipIdx_mapM_eq_error {f : σ × Nat → Except ε τ} {xs : List σ} {e : ε} :
    xs.zipIdx.mapM f = .error e ↔
      ∃ (i : Nat) (x : σ), xs[i]? = some x ∧ (∀ (j : Nat) y, j < i → xs[j]? = some y → ∃ z, f (y, j) = .ok z) ∧
        f (x, i) = .error e := by
  rw [mapM_eq_error]
  constructor
  · rintro ⟨i, ⟨x, j⟩, hxj, hbefore, he⟩
    obtain ⟨hx, rfl⟩ := getElem?_zipIdx_eq_some.1 hxj
    exact ⟨i, x, hx, fun j y hj hy => hbefore j (y, j) hj (getElem?_zipIdx_eq_some.2 ⟨hy, rfl⟩), he⟩
  · rintro ⟨i, x, hx, hbefore, he⟩
    refine ⟨i, (x, i), getElem?_zipIdx_eq_some.2 ⟨hx, rfl⟩, fun j ⟨y, k⟩ hj hyk => ?_, he⟩
    obtain ⟨hy, rfl⟩ := getElem?_zipIdx_eq_some.1 hyk
    exact hbefore j y hj hy

/-- A list of checks maps the list to results that say nothing. -/
theorem forM_eq_mapM (f : τ → Except ε Unit) (xs : List τ) : forM xs f = (fun _ => ()) <$> xs.mapM f := by
  induction xs with
  | nil => rfl
  | cons x xs ih =>
    rw [List.forM_cons, List.mapM_cons, ih]
    cases f x <;> cases xs.mapM f <;> rfl

theorem checkEach_eq_mapM (check : Nat → τ → Except ε Unit) (start : Nat) (xs : List τ) :
    checkEach check start xs = (fun _ => ()) <$> (xs.zipIdx start).mapM fun x => check x.2 x.1 := by
  induction xs generalizing start with
  | nil => rfl
  | cons x xs ih =>
    rw [checkEach, ih, List.zipIdx_cons, List.mapM_cons]
    cases check start x <;> cases (xs.zipIdx (start + 1)).mapM fun x => check x.2 x.1 <;> rfl

/-- The error of a list of checks is that of the first one that fails. -/
theorem forM_eq_error {f : τ → Except ε Unit} {xs : List τ} {e : ε} :
    forM xs f = .error e ↔
      ∃ (i : Nat) (x : τ), xs[i]? = some x ∧ (∀ (j : Nat) y, j < i → xs[j]? = some y → f y = .ok ()) ∧
        f x = .error e := by
  rw [forM_eq_mapM, map_eq_error, mapM_eq_error]
  simp only [exists_unit]

theorem checkEach_eq_error {check : Nat → τ → Except ε Unit} {xs : List τ} {e : ε} :
    checkEach check 0 xs = .error e ↔
      ∃ (i : Nat) (x : τ), xs[i]? = some x ∧ (∀ (j : Nat) y, j < i → xs[j]? = some y → check j y = .ok ()) ∧
        check i x = .error e := by
  rw [checkEach_eq_mapM, map_eq_error, zipIdx_mapM_eq_error]
  simp only [exists_unit]

/-! ## Scans -/

/-- A scan that passes good elements only reaches an element at a position. -/
def Reaches (good : τ → Prop) (xs : List τ) (i : Nat) (x : τ) : Prop :=
  xs[i]? = some x ∧ ∀ (j : Nat) y, j < i → xs[j]? = some y → good y

theorem forM_eq_error_iff_reaches {f : τ → Except ε Unit} {good : τ → Prop} (hgood : ∀ x, f x = .ok () ↔ good x)
    {xs : List τ} {e : ε} : forM xs f = .error e ↔ ∃ i x, Reaches good xs i x ∧ f x = .error e := by
  simp only [forM_eq_error, hgood, Reaches, and_assoc]

theorem checkEach_eq_error_iff_reaches {check : Nat → τ → Except ε Unit} {good : τ → Prop}
    (hgood : ∀ i x, check i x = .ok () ↔ good x) {xs : List τ} {e : ε} :
    checkEach check 0 xs = .error e ↔ ∃ i x, Reaches good xs i x ∧ check i x = .error e := by
  simp only [checkEach_eq_error, hgood, Reaches, and_assoc]

/-- The first element whose index is not below a bound. -/
theorem forM_require_lt_eq_error {index : τ → Nat} {bound : Nat} {error : τ → ε} {xs : List τ} {e : ε} :
    (forM xs fun x => require (index x < bound) (error x)) = .error e ↔
      ∃ i x, Reaches (fun y => index y < bound) xs i x ∧ bound ≤ index x ∧ e = error x := by
  rw [forM_eq_error_iff_reaches fun x => require_eq_ok]
  simp only [require_eq_error, Nat.not_lt]

end MultiView
