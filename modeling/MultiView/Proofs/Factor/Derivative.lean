import Mathlib
import MultiView.Proofs.Factor.Reads
import MultiView.Proofs.Factor.Transfer
import MultiView.Proofs.Scalar.Real

/-!
# Jacobians are derivatives

On exact numbers, dual arithmetic carries a value and its derivative along (`Dual.respects_isJet`). So where the
residual of a factor divides by nothing that is zero, each entry of a Jacobian is the partial derivative of a component
of the residual by a scalar of a block (`Factor.linearize_partial`).
-/

namespace MultiView

/-! ## Jets -/

/-- The value and the derivative of a function at a point. -/
structure Dual.IsJet (t : ℝ) (g : ℝ → ℝ) (d : Dual ℝ) : Prop where
  re : d.re = g t
  eps : HasDerivAt g d.eps t

/-- Dual arithmetic is calculus, but at quotients by a function that is zero at the point. -/
theorem Dual.respects_isJet (t : ℝ) : Respects (Dual.IsJet t) (· ≠ 0) t where
  zero := ⟨rfl, hasDerivAt_const t 0⟩
  one := ⟨rfl, hasDerivAt_const t 1⟩
  neg ha := ⟨congrArg (-·) ha.re, ha.eps.neg⟩
  add ha hb := ⟨congrArg₂ (· + ·) ha.re hb.re, ha.eps.add hb.eps⟩
  sub ha hb := ⟨congrArg₂ (· - ·) ha.re hb.re, ha.eps.sub hb.eps⟩
  mul {a b x y} ha hb := by
    refine ⟨congrArg₂ (· * ·) ha.re hb.re, (ha.eps.fun_mul hb.eps).congr_deriv ?_⟩
    change x.eps * b t + a t * y.eps = x.eps * y.re + y.eps * x.re
    rw [ha.re, hb.re]
    ring
  div {a b x y} hb0 ha hb := by
    constructor
    · change x.re * (1 / y.re) = a t / b t
      rw [ha.re, hb.re]
      ring
    · refine (ha.eps.fun_div hb.eps hb0).congr_deriv ?_
      change (x.eps * b t - a t * y.eps) / b t ^ 2 = (x.eps * y.re - y.eps * x.re) * (1 / y.re) * (1 / y.re)
      rw [ha.re, hb.re]
      ring

/-! ## Seeds -/

section Seeds

variable {α : Type} [Scalar α] {blocks : List (List α)} {b col : Nat} {values : List α} {x : α}

/-- Only the scalar that is differentiated by has a dual part. -/
theorem getD_seedBlocks (hb : blocks[b]? = some values) (hcol : values[col]? = some x) (i j : Nat) :
    ((seedBlocks blocks b col).getD i []).getD j 0 =
      ⟨(blocks.getD i []).getD j 0, if i = b ∧ j = col then 1 else 0⟩ := by
  simp only [seedBlocks, List.getD_eq_getElem?_getD, List.getElem?_mapIdx]
  cases hi : blocks[i]? with
  | none =>
    have hne : i ≠ b := by rintro rfl; rw [hb] at hi; cases hi
    simp [hne]
    rfl
  | some entries =>
    cases hj : entries[j]? with
    | none =>
      have hne : ¬(i = b ∧ j = col) := by
        rintro ⟨rfl, rfl⟩
        obtain rfl := Option.some.inj (hb.symm.trans hi)
        rw [hcol] at hj
        cases hj
      simp [hj, hne]
      rfl
    | some y => simp [hj]

/-- Changing one scalar leaves the others. -/
theorem getD_set_set (hb : blocks[b]? = some values) (hcol : values[col]? = some x) (i j : Nat) (t : α) :
    ((blocks.set b (values.set col t)).getD i []).getD j 0 =
      if i = b ∧ j = col then t else (blocks.getD i []).getD j 0 := by
  obtain ⟨hlt, rfl⟩ := List.getElem?_eq_some_iff.1 hb
  obtain ⟨hcollt, rfl⟩ := List.getElem?_eq_some_iff.1 hcol
  simp only [List.getD_eq_getElem?_getD, List.getElem?_set]
  by_cases hi : i = b
  · subst hi
    by_cases hj : j = col
    · subst hj; simp [hlt, hcollt]
    · simp [hlt, hj, Ne.symm hj]
  · simp [hi, Ne.symm hi]

end Seeds

/-- The seeds are the jets of the blocks, as functions of the scalar that is differentiated by. -/
theorem blocksRel_seedBlocks {blocks : List (List ℝ)} {b col : Nat} {values : List ℝ} {x : ℝ}
    (hb : blocks[b]? = some values) (hcol : values[col]? = some x) :
    BlocksRel (Dual.IsJet x) (fun t => blocks.set b (values.set col t)) (seedBlocks blocks b col) := by
  intro i j
  simp only [getD_seedBlocks hb hcol, getD_set_set hb hcol]
  by_cases hij : i = b ∧ j = col
  · obtain ⟨rfl, rfl⟩ := hij
    simp only [and_self, if_true]
    exact ⟨by simp [hb, hcol], hasDerivAt_id x⟩
  · simp only [hij, if_false]
    exact ⟨rfl, hasDerivAt_const x _⟩

/-! ## Jacobians -/

namespace Factor

/-- The matrix of the partial derivatives of a residual by the scalars of one block. -/
structure IsJacobian (f : Factor ℝ) (blocks : List (List ℝ)) (b : Nat) (values : List ℝ) (matrix : List (List ℝ)) :
    Prop where
  rows : matrix.length = f.residualDim
  columns : ∀ row ∈ matrix, row.length = values.length
  entry : ∀ (row col : Nat) (entries : List ℝ) (entry x : ℝ), matrix[row]? = some entries →
    entries[col]? = some entry → values[col]? = some x →
      HasDerivAt (fun t => (f.residual (blocks.set b (values.set col t))).getD row 0) entry x

@[simp] theorem map_id {α : Type} (f : Factor α) : f.map id = f := by
  cases f <;> rfl

theorem jacobian_entry {α : Type} [Scalar α] {f : Factor α} {blocks : List (List α)} {b size row col : Nat}
    {entries : List α} {entry : α} (hrow : (f.jacobian blocks b size)[row]? = some entries)
    (hcol : entries[col]? = some entry) :
    entry = (((f.map Dual.lift).residual (seedBlocks blocks b col)).getD row 0).eps := by
  simp only [jacobian, List.getElem?_map, Option.map_eq_some_iff] at hrow
  obtain ⟨_, hr, rfl⟩ := hrow
  simp only [List.getElem?_map, Option.map_eq_some_iff] at hcol
  obtain ⟨_, ⟨_, hc, rfl⟩, rfl⟩ := hcol
  obtain ⟨-, rfl⟩ := List.getElem?_eq_some_iff.1 hr
  obtain ⟨-, rfl⟩ := List.getElem?_eq_some_iff.1 hc
  simp only [List.getElem_range, jacobianColumn]
  exact List.getD_map _ (0 : Dual α) Dual.eps

/-- Partial derivatives by one scalar. -/
theorem hasDerivAt_residual {f : Factor ℝ} {blocks : List (List ℝ)} (hdivisors : ∀ x ∈ f.divisors blocks, x ≠ 0)
    {b col : Nat} {values : List ℝ} {x : ℝ} (hb : blocks[b]? = some values) (hcol : values[col]? = some x) (row : Nat) :
    HasDerivAt (fun t => (f.residual (blocks.set b (values.set col t))).getD row 0)
      (((f.map Dual.lift).residual (seedBlocks blocks b col)).getD row 0).eps x := by
  have hconst : ∀ c : ℝ, Dual.IsJet x (fun _ => id c) (Dual.lift c) := fun c => ⟨rfl, hasDerivAt_const x c⟩
  -- the divisors are those at the point itself, where the varying blocks are the given ones
  have hbase : blocks.set b (values.set col x) = blocks := by
    obtain ⟨_, rfl⟩ := List.getElem?_eq_some_iff.1 hb
    obtain ⟨_, rfl⟩ := List.getElem?_eq_some_iff.1 hcol
    rw [List.set_getElem_self, List.set_getElem_self]
  have hjet := (Dual.respects_isJet x).residual hconst f (blocksRel_seedBlocks hb hcol)
    (by simpa only [hbase, map_id] using hdivisors) row
  simpa only [map_id] using hjet.eps

theorem isJacobian_jacobian {f : Factor ℝ} {blocks : List (List ℝ)} (hdivisors : ∀ x ∈ f.divisors blocks, x ≠ 0)
    {b : Nat} {values : List ℝ} (hb : blocks[b]? = some values) :
    f.IsJacobian blocks b values (f.jacobian blocks b values.length) where
  rows := by simp [jacobian]
  columns row hrow := by
    obtain ⟨_, -, rfl⟩ := List.mem_map.1 hrow
    simp
  entry row col entries entry x hrow hcol hx := by
    rw [jacobian_entry hrow hcol]
    exact hasDerivAt_residual hdivisors hb hx row

/-- Where nothing divides by zero, a linearization is the residual and, for each block, the matrix of the partial
derivatives of its components by the scalars of the block. -/
theorem linearize_partial (f : Factor ℝ) (blocks : List (List ℝ)) (hsizes : f.blockSizes = blocks.map List.length)
    (hdivisors : ∀ x ∈ f.divisors blocks, x ≠ 0) :
    ∃ jacobians, f.linearize blocks = .ok ⟨f.residual blocks, jacobians⟩ ∧
      f.evaluate blocks = .ok (f.residual blocks) ∧ (f.residual blocks).length = f.residualDim ∧
      jacobians.length = blocks.length ∧
      ∀ (b : Nat) (values : List ℝ) (matrix : List (List ℝ)), blocks[b]? = some values →
        jacobians[b]? = some matrix → f.IsJacobian blocks b values matrix := by
  refine ⟨blocks.mapIdx fun i values => f.jacobian blocks i values.length, ?_, evaluate_eq_ok.2 ⟨hsizes, rfl⟩,
    f.length_residual blocks, List.length_mapIdx, ?_⟩
  · have hcheck : f.checkBlocks (blocks.map List.length) = .ok () := checkBlocks_eq_ok.2 hsizes
    rw [linearize, hcheck]
    rfl
  · intro b values matrix hb hmatrix
    rw [List.getElem?_mapIdx, hb] at hmatrix
    obtain rfl := Option.some.inj hmatrix
    exact isJacobian_jacobian hdivisors hb

/-- A pixel of a camera at the origin that looks along the third axis. -/
noncomputable def centered : Factor ℝ := .fixedPose .simplePinhole .one ⟨0, 0⟩

theorem divisors_centered : ∀ x ∈ centered.divisors [[1, 0, 2], [1, 0, 0]], x ≠ 0 := by
  intro x hx
  obtain rfl := List.mem_singleton.1 hx
  rw [Pose.one_apply]
  exact two_ne_zero

/-- A point at depth two has a Jacobian. -/
theorem linearize_partial_centered :
    (∀ x ∈ centered.divisors [[1, 0, 2], [1, 0, 0]], x ≠ 0) ∧
      ∃ jacobians, centered.linearize [[1, 0, 2], [1, 0, 0]] =
          .ok ⟨centered.residual [[1, 0, 2], [1, 0, 0]], jacobians⟩ ∧
        ∀ matrix, jacobians[0]? = some matrix →
          centered.IsJacobian [[1, 0, 2], [1, 0, 0]] 0 [1, 0, 2] matrix := by
  obtain ⟨jacobians, hlinearize, -, -, -, hjacobian⟩ := linearize_partial centered _ rfl divisors_centered
  exact ⟨divisors_centered, jacobians, hlinearize, fun matrix hmatrix => hjacobian 0 _ matrix rfl hmatrix⟩

end Factor

end MultiView
