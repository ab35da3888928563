import Mathlib
import MultiView.Problem.Evaluation
import MultiView.Proofs.Scalar.Real

/-!
# Costs

In exact arithmetic, the cost of residuals is half the sum of their squared lengths (`totalCost_eq`). It does not depend
on the order of the residuals (`totalCost_perm`), and residuals that are left out do not raise it
(`totalCost_sublist_le`).
-/

namespace MultiView

theorem Scalar.sum_eq (xs : List ℝ) : Scalar.sum xs = xs.sum := by
  rw [Scalar.sum, List.sum_eq_foldl]

theorem normSq_nonneg (r : List ℝ) : 0 ≤ normSq r := by
  rw [normSq, Scalar.sum_eq]
  refine List.sum_nonneg fun x hx => ?_
  obtain ⟨y, -, rfl⟩ := List.mem_map.1 hx
  exact mul_self_nonneg y

theorem totalCost_eq (rs : List (List ℝ)) : totalCost rs = (rs.map normSq).sum / 2 := by
  rw [totalCost, Scalar.sum_eq, Scalar.half_eq]
  ring

theorem totalCost_nonneg (rs : List (List ℝ)) : 0 ≤ totalCost rs := by
  have hsum : 0 ≤ (rs.map normSq).sum := List.sum_nonneg fun x hx => by
    obtain ⟨r, -, rfl⟩ := List.mem_map.1 hx
    exact normSq_nonneg r
  rw [totalCost_eq]
  linarith

/-- The cost is at most the number of residuals times half of a bound of their squared lengths. -/
theorem totalCost_le {rs : List (List ℝ)} {c : ℝ} (h : ∀ r ∈ rs, normSq r ≤ 2 * c) : totalCost rs ≤ rs.length * c := by
  have hsum : (rs.map normSq).sum ≤ rs.length * (2 * c) := by
    have hcard := List.sum_le_card_nsmul (rs.map normSq) (2 * c) fun x hx => by
      obtain ⟨r, hr, rfl⟩ := List.mem_map.1 hx
      exact h r hr
    simpa using hcard
  rw [totalCost_eq]
  linarith

theorem totalCost_eq_zero {rs : List (List ℝ)} (h : ∀ r ∈ rs, normSq r = 0) : totalCost rs = 0 := by
  rw [totalCost_eq, List.sum_eq_zero, zero_div]
  intro x hx
  obtain ⟨r, hr, rfl⟩ := List.mem_map.1 hx
  exact h r hr

theorem totalCost_perm {rs rs' : List (List ℝ)} (h : rs.Perm rs') : totalCost rs = totalCost rs' := by
  rw [totalCost_eq, totalCost_eq, (h.map normSq).sum_eq]

theorem totalCost_sublist_le {rs rs' : List (List ℝ)} (h : rs'.Sublist rs) : totalCost rs' ≤ totalCost rs := by
  have hsum : (rs'.map normSq).sum ≤ (rs.map normSq).sum := (h.map normSq).sum_le_sum fun x hx => by
    obtain ⟨r, -, rfl⟩ := List.mem_map.1 hx
    exact normSq_nonneg r
  rw [totalCost_eq, totalCost_eq]
  linarith

end MultiView
