import Mathlib
import MultiView.Camera.Distortion
import MultiView.Proofs.Scalar.Real

/-!
# Fixed-point iteration

`Undistort.iterate` solves `p + offset p = target` by steps `q ↦ target - offset q`. It ends with the first short step,
at the point that this step leads to, or when its passes have run out (`Undistort.iterate_cases`), so it makes small
what its steps shrink (`Undistort.iterate_le`). Where the offset contracts towards a solution (`Undistort.Contracts`), a
step brings a point nearer to it (`Undistort.Contracts.step`), and how near is seen from the length of the step
(`Undistort.Contracts.step_le`). So the point that the iteration ends at is as near as the tolerance allows, or as near
as that many contractions bring it (`Undistort.Contracts.iterate`, `Undistort.undistort_near`). Where no solution is
known but steps shrink in a region that they do not leave (`Undistort.Settles`), the point that the iteration ends at
solves the equation up to the tolerance, or up to the last step (`Undistort.Settles.iterate_miss`). Distances are
taxicab.
-/

namespace MultiView

/-! ## Taxicab lengths -/

theorem Scalar.abs_eq (x : ℝ) : Scalar.abs x = |x| := by
  rw [Scalar.abs]
  split
  · next h => exact (abs_of_neg h).symm
  · next h => exact (abs_of_nonneg (not_lt.1 h)).symm

namespace Vec2

section Components

variable {α : Type} [Scalar α] (a b : Vec2 α)

@[simp] theorem add_x : (a + b).x = a.x + b.x := rfl

@[simp] theorem add_y : (a + b).y = a.y + b.y := rfl

@[simp] theorem sub_x : (a - b).x = a.x - b.x := rfl

@[simp] theorem sub_y : (a - b).y = a.y - b.y := rfl

end Components

theorem taxicab_eq (v : Vec2 ℝ) : v.taxicab = |v.x| + |v.y| := by
  rw [taxicab, Scalar.abs_eq, Scalar.abs_eq]

theorem taxicab_nonneg (v : Vec2 ℝ) : 0 ≤ v.taxicab := by
  rw [taxicab_eq]
  positivity

theorem taxicab_sub_self (a : Vec2 ℝ) : (a - a).taxicab = 0 := by
  rw [taxicab_eq, sub_x, sub_y, sub_self, sub_self, abs_zero, add_zero]

theorem taxicab_sub_comm (a b : Vec2 ℝ) : (a - b).taxicab = (b - a).taxicab := by
  simp only [taxicab_eq, sub_x, sub_y, abs_sub_comm]

theorem taxicab_sub_le (a b c : Vec2 ℝ) : (a - c).taxicab ≤ (a - b).taxicab + (b - c).taxicab := by
  simp only [taxicab_eq, sub_x, sub_y]
  have hx := abs_sub_le a.x b.x c.x
  have hy := abs_sub_le a.y b.y c.y
  linarith

end Vec2

namespace Undistort

theorem tolerance_eq : (tolerance : ℝ) = 1 / 10 ^ 10 := by
  norm_num [tolerance, Scalar.decimal]

/-! ## Endings -/

section Endings

variable {α : Type} [Scalar α]

/-- The point that `n` steps lead to, whether they are short or not. -/
def after (offset : Vec2 α → Vec2 α) (target : Vec2 α) (n : ℕ) (p : Vec2 α) : Vec2 α :=
  (fun q => target - offset q)^[n] p

/-- Is the step from a point a short one? -/
def Short (offset : Vec2 α → Vec2 α) (target q : Vec2 α) : Prop := (target - offset q - q).taxicab < tolerance

/-- The first short step is the one after `n` steps. -/
structure StopsAfter (offset : Vec2 α → Vec2 α) (target p : Vec2 α) (n : ℕ) : Prop where
  short : Short offset target (after offset target n p)
  long : ∀ i < n, ¬Short offset target (after offset target i p)

theorem after_succ (offset : Vec2 α → Vec2 α) (target : Vec2 α) (n : ℕ) (p : Vec2 α) :
    after offset target (n + 1) p = target - offset (after offset target n p) :=
  Function.iterate_succ_apply' _ n p

variable {offset : Vec2 α → Vec2 α} {target p : Vec2 α}

/-- The steps after the first are those from the next point. -/
theorem long_succ {n : ℕ} (hfirst : ¬Short offset target p)
    (hrest : ∀ i < n, ¬Short offset target (after offset target i (target - offset p))) :
    ∀ i < n + 1, ¬Short offset target (after offset target i p)
  | 0, _ => hfirst
  | i + 1, hi => hrest i (Nat.lt_of_succ_lt_succ hi)

/-- The iteration ends with the first short step, or when the passes have run out. -/
theorem iterate_cases (offset : Vec2 α → Vec2 α) (target : Vec2 α) (passes : ℕ) (p : Vec2 α) :
    (∃ n < passes, StopsAfter offset target p n ∧
      iterate offset target passes p = after offset target (n + 1) p) ∨
    (∀ n < passes, ¬Short offset target (after offset target n p)) ∧
      iterate offset target passes p = after offset target passes p := by
  induction passes generalizing p with
  | zero => exact .inr ⟨fun n hn => absurd hn (Nat.not_lt_zero n), rfl⟩
  | succ passes ih =>
    rw [iterate]
    split
    · next h => exact .inl ⟨0, passes.succ_pos, ⟨h, fun i hi => absurd hi (Nat.not_lt_zero i)⟩, rfl⟩
    · next h =>
      rcases ih (target - offset p) with ⟨n, hn, hstops, hend⟩ | ⟨hlong, hend⟩
      · exact .inl ⟨n + 1, Nat.succ_lt_succ hn, ⟨hstops.short, long_succ h hstops.long⟩, hend⟩
      · exact .inr ⟨long_succ h hlong, hend⟩

end Endings

/-! ## Steps that shrink something -/

section Shrinking

variable {offset : Vec2 ℝ → Vec2 ℝ} {target q : Vec2 ℝ} {region : Vec2 ℝ → Prop} {factor small : ℝ}

/-- Steps do not leave a region that none of them leaves. -/
theorem after_mem (hstays : ∀ q, region q → region (target - offset q)) (hq : region q) (n : ℕ) :
    region (after offset target n q) := by
  induction n with
  | zero => exact hq
  | succ n ih =>
    rw [after_succ]
    exact hstays _ ih

/-- A size that steps within a region shrink has shrunk with every step. -/
theorem after_le (size : Vec2 ℝ → ℝ) (hfactor : 0 ≤ factor) (hstays : ∀ q, region q → region (target - offset q))
    (hstep : ∀ q, region q → size (target - offset q) ≤ factor * size q) (hq : region q) (n : ℕ) :
    size (after offset target n q) ≤ factor ^ n * size q := by
  induction n with
  | zero =>
    rw [pow_zero, one_mul]
    exact le_rfl
  | succ n ih =>
    rw [after_succ, pow_succ', mul_assoc]
    exact (hstep _ (after_mem hstays hq n)).trans (mul_le_mul_of_nonneg_left ih hfactor)

/-- If the size is small after a short step, it is small where the iteration ends, or has shrunk with every pass. -/
theorem iterate_le (size : Vec2 ℝ → ℝ) (hfactor : 0 ≤ factor) (hstays : ∀ q, region q → region (target - offset q))
    (hstep : ∀ q, region q → size (target - offset q) ≤ factor * size q)
    (hshort : ∀ q, region q → Short offset target q → size (target - offset q) ≤ small) (passes : ℕ)
    (hq : region q) : size (iterate offset target passes q) ≤ max small (factor ^ passes * size q) := by
  rcases iterate_cases offset target passes q with ⟨n, -, hstops, hend⟩ | ⟨-, hend⟩ <;> rw [hend]
  · rw [after_succ]
    exact le_max_of_le_left (hshort _ (after_mem hstays hq n) hstops.short)
  · exact le_max_of_le_right (after_le size hfactor hstays hstep hq passes)

end Shrinking

/-! ## Contractions -/

/-- Within a radius of a point, offsets differ from that of the point by less than a part of the distance. -/
structure Contracts (offset : Vec2 ℝ → Vec2 ℝ) (p : Vec2 ℝ) (radius factor : ℝ) : Prop where
  factor_nonneg : 0 ≤ factor
  factor_lt_one : factor < 1
  shrinks : ∀ q, (q - p).taxicab ≤ radius → (offset q - offset p).taxicab ≤ factor * (q - p).taxicab

namespace Contracts

variable {offset : Vec2 ℝ → Vec2 ℝ} {p q target : Vec2 ℝ} {radius factor : ℝ}

/-- A step towards a solution. -/
theorem step (h : Contracts offset p radius factor) (hp : p + offset p = target) (hq : (q - p).taxicab ≤ radius) :
    (target - offset q - p).taxicab ≤ factor * (q - p).taxicab := by
  have hback : target - offset q - p = offset p - offset q := by
    rw [← hp]
    ext <;> simp <;> ring
  rw [hback, Vec2.taxicab_sub_comm]
  exact h.shrinks q hq

/-- A step does not leave the radius. -/
theorem step_stays (h : Contracts offset p radius factor) (hp : p + offset p = target)
    (hq : (q - p).taxicab ≤ radius) : (target - offset q - p).taxicab ≤ radius :=
  calc (target - offset q - p).taxicab ≤ factor * (q - p).taxicab := h.step hp hq
    _ ≤ 1 * (q - p).taxicab := by gcongr; exacts [Vec2.taxicab_nonneg _, h.factor_lt_one.le]
    _ ≤ radius := by rwa [one_mul]

/-- After a short step the solution is near. -/
theorem step_le (h : Contracts offset p radius factor) (hp : p + offset p = target) (hq : (q - p).taxicab ≤ radius) :
    (target - offset q - p).taxicab ≤ factor / (1 - factor) * (target - offset q - q).taxicab := by
  have hstep := h.step hp hq
  have hfrom : (q - p).taxicab ≤ (target - offset q - q).taxicab + (target - offset q - p).taxicab := by
    rw [Vec2.taxicab_sub_comm (target - offset q) q]
    exact Vec2.taxicab_sub_le q (target - offset q) p
  rw [div_mul_eq_mul_div, le_div_iff₀ (sub_pos.2 h.factor_lt_one)]
  have hscaled := mul_le_mul_of_nonneg_left hfrom h.factor_nonneg
  linarith

theorem ratio_nonneg (h : Contracts offset p radius factor) : 0 ≤ factor / (1 - factor) :=
  div_nonneg h.factor_nonneg (sub_pos.2 h.factor_lt_one).le

/-- After a step shorter than the tolerance the solution is as near as that. -/
theorem step_short (h : Contracts offset p radius factor) (hp : p + offset p = target)
    (hq : (q - p).taxicab ≤ radius) (hshort : Short offset target q) :
    (target - offset q - p).taxicab ≤ factor / (1 - factor) * tolerance :=
  (h.step_le hp hq).trans (mul_le_mul_of_nonneg_left (le_of_lt hshort) h.ratio_nonneg)

/-- The point where the iteration ends. -/
theorem iterate (h : Contracts offset p radius factor) (hp : p + offset p = target) (passes : Nat)
    (hq : (q - p).taxicab ≤ radius) : (Undistort.iterate offset target passes q - p).taxicab ≤
      max (factor / (1 - factor) * tolerance) (factor ^ passes * (q - p).taxicab) :=
  iterate_le (fun q => (q - p).taxicab) h.factor_nonneg (fun _ => h.step_stays hp) (fun _ => h.step hp)
    (fun _ => h.step_short hp) passes hq

/-- The iteration starts from the target, which is as far from the solution as the offset there says. -/
theorem undistort (h : Contracts offset p (offset p).taxicab factor) :
    (MultiView.undistort offset (p + offset p) - p).taxicab ≤
      max (factor / (1 - factor) * tolerance) (factor ^ maxPasses * (offset p).taxicab) := by
  have hstart : p + offset p - p = offset p := by ext <;> simp
  have hiterate := h.iterate rfl maxPasses (by rw [hstart])
  rwa [hstart] at hiterate

end Contracts

/-- If offsets differ by a part of the distance in the ball around a solution that reaches to the target, no point of
the iteration leaves the ball. The point that it returns is near by the length of the last step if it stops early, and
by the number of steps if it does not. -/
theorem undistort_near {offset : Vec2 ℝ → Vec2 ℝ} {p target : Vec2 ℝ} {factor : ℝ} (hp : p + offset p = target)
    (hnonneg : 0 ≤ factor) (hlt : factor < 1)
    (hlipschitz : ∀ a b : Vec2 ℝ, (a - p).taxicab ≤ (target - p).taxicab → (b - p).taxicab ≤ (target - p).taxicab →
      (offset a - offset b).taxicab ≤ factor * (a - b).taxicab) :
    (∀ n, (after offset target n target - p).taxicab ≤ (target - p).taxicab) ∧
    ((∃ n < 100, StopsAfter offset target target n ∧
        undistort offset target = after offset target (n + 1) target ∧
        (undistort offset target - p).taxicab ≤ factor / (1 - factor) * (1 / 10 ^ 10)) ∨
      (∀ n < 100, ¬Short offset target (after offset target n target)) ∧
        undistort offset target = after offset target 100 target ∧
        (undistort offset target - p).taxicab ≤ factor ^ 100 * (target - p).taxicab) ∧
    (undistort offset target - p).taxicab ≤
      max (factor / (1 - factor) * (1 / 10 ^ 10)) (factor ^ 100 * (target - p).taxicab) := by
  have hcenter : (p - p).taxicab ≤ (target - p).taxicab := by
    rw [Vec2.taxicab_sub_self]
    exact Vec2.taxicab_nonneg _
  have hcontracts : Contracts offset p (target - p).taxicab factor :=
    ⟨hnonneg, hlt, fun q hq => hlipschitz q p hq hcenter⟩
  have hball : ∀ q, (q - p).taxicab ≤ (target - p).taxicab →
      (target - offset q - p).taxicab ≤ (target - p).taxicab := fun _ => hcontracts.step_stays hp
  have hstays := after_mem hball le_rfl
  refine ⟨hstays, ?_⟩
  rcases iterate_cases offset target 100 target with ⟨n, hn, hstops, hend⟩ | ⟨hlong, hend⟩
  · have hnear := hcontracts.step_short hp (hstays n) hstops.short
    rw [← after_succ, ← hend, tolerance_eq] at hnear
    exact ⟨.inl ⟨n, hn, hstops, hend, hnear⟩, le_max_of_le_left hnear⟩
  · have hnear := after_le (fun q => (q - p).taxicab) hnonneg hball (fun _ => hcontracts.step hp) le_rfl 100
    rw [← hend] at hnear
    exact ⟨.inr ⟨hlong, hend, hnear⟩, le_max_of_le_right hnear⟩

/-- A quarter turn that halves lengths. -/
noncomputable def spiral (q : Vec2 ℝ) : Vec2 ℝ := ⟨q.y * Scalar.half, -(q.x * Scalar.half)⟩

theorem undistort_near_spiral :
    (∀ n, (after spiral ⟨2, -1⟩ n ⟨2, -1⟩ - ⟨2, 0⟩).taxicab ≤ 1) ∧
      (undistort spiral ⟨2, -1⟩ - ⟨2, 0⟩).taxicab ≤ 1 / 10 ^ 10 := by
  have hp : (⟨2, 0⟩ : Vec2 ℝ) + spiral ⟨2, 0⟩ = ⟨2, -1⟩ := by
    ext <;> norm_num [spiral, Scalar.half_eq]
  have hlipschitz : ∀ a b : Vec2 ℝ, (spiral a - spiral b).taxicab ≤ 1 / 2 * (a - b).taxicab := fun a b => by
    have hx : a.y * (1 / 2) - b.y * (1 / 2) = (a.y - b.y) * (1 / 2) := by ring
    have hy : -(a.x * (1 / 2)) - -(b.x * (1 / 2)) = (b.x - a.x) * (1 / 2) := by ring
    simp only [Vec2.taxicab_eq, spiral, Scalar.half_eq, Vec2.sub_x, Vec2.sub_y, hx, hy, abs_mul, abs_sub_comm b.x]
    norm_num
    linarith
  have hdistance : ((⟨2, -1⟩ : Vec2 ℝ) - ⟨2, 0⟩).taxicab = 1 := by
    rw [Vec2.taxicab_eq]
    norm_num
  obtain ⟨hstays, -, hnear⟩ :=
    undistort_near hp (by norm_num) (by norm_num : (1 / 2 : ℝ) < 1) fun a b _ _ => hlipschitz a b
  rw [hdistance] at hnear
  exact ⟨fun n => (hstays n).trans hdistance.le, hnear.trans (max_le (by norm_num) (by norm_num))⟩

/-! ## Iterations without a known solution -/

/-- What a point misses of solving the equation is the step from it. -/
theorem taxicab_miss (offset : Vec2 ℝ → Vec2 ℝ) (target q : Vec2 ℝ) :
    (q + offset q - target).taxicab = (target - offset q - q).taxicab := by
  rw [← Vec2.taxicab_sub_comm q]
  congr 1
  ext <;> simp <;> ring

/-- Steps towards a target do not leave a region, in which offsets differ by a part of the distance. -/
structure Settles (offset : Vec2 ℝ → Vec2 ℝ) (target : Vec2 ℝ) (region : Vec2 ℝ → Prop) (factor : ℝ) : Prop where
  factor_nonneg : 0 ≤ factor
  stays : ∀ q, region q → region (target - offset q)
  shrinks : ∀ p q, region p → region q → (offset p - offset q).taxicab ≤ factor * (p - q).taxicab

namespace Settles

variable {offset : Vec2 ℝ → Vec2 ℝ} {q target : Vec2 ℝ} {region : Vec2 ℝ → Prop} {factor : ℝ}

/-- A step is a part of the step before. -/
theorem step (h : Settles offset target region factor) (hq : region q) :
    (target - offset (target - offset q) - (target - offset q)).taxicab ≤
      factor * (target - offset q - q).taxicab := by
  have hoffsets : target - offset (target - offset q) - (target - offset q) =
      offset q - offset (target - offset q) := by
    ext <;> simp
  rw [hoffsets, Vec2.taxicab_sub_comm]
  exact h.shrinks _ q (h.stays q hq) hq

/-- What the point where the iteration ends misses of solving the equation. -/
theorem iterate_miss (h : Settles offset target region factor) (passes : Nat) (hq : region q) :
    (Undistort.iterate offset target passes q + offset (Undistort.iterate offset target passes q) - target).taxicab ≤
      max (factor * tolerance) (factor ^ passes * (target - offset q - q).taxicab) := by
  simp only [taxicab_miss]
  exact iterate_le (fun q => (target - offset q - q).taxicab) h.factor_nonneg h.stays (fun _ => h.step)
    (fun _ hq hshort => (h.step hq).trans (mul_le_mul_of_nonneg_left hshort.le h.factor_nonneg)) passes hq

/-- The iteration starts from the target. -/
theorem undistort_miss (h : Settles offset target region factor) (htarget : region target) :
    (undistort offset target + offset (undistort offset target) - target).taxicab ≤
      max (factor * tolerance) (factor ^ maxPasses * (offset target).taxicab) := by
  have hfirst : (target - offset target - target).taxicab = (offset target).taxicab := by
    rw [← taxicab_miss]
    congr 1
    ext <;> simp
  have hmiss := h.iterate_miss maxPasses htarget
  rwa [hfirst] at hmiss

end Settles

end Undistort

end MultiView
