import Mathlib
import MultiView.Proofs.Factor.Derivative
import MultiView.Proofs.Factor.Embedding
import MultiView.Proofs.Scalar.Dual
import MultiView.Proofs.Scalar.MultiDual

/-!
# Derivatives along directions

A residual at blocks of duals is the plain residual together with the Jacobian times the dual parts of the blocks,
whatever these are (`Factor.residual_dual`). For dual arithmetic is linear in dual parts, products and quotients
included: the dual that it makes of combinations of duals (`Dual.IsCombination`) is the combination of the duals that
it makes of each. Blocks of duals are combinations of the blocks that a Jacobian is made of, in which a single scalar
is seeded (`blocksRel_isCombination`).

So differentiating once along a direction comes to the same as differentiating by one scalar after the other, and so
does differentiating along many directions at once (`Factor.linearize_along`).
-/

namespace MultiView

/-! ## Combinations -/

namespace Dual

variable {ι : Type} {s : Finset ι} {weight : ι → ℝ} {a b c : ι → Dual ℝ} {x y z : Dual ℝ}

/-- A dual has the real part that the members of a family have, and the weighted sum of their dual parts. -/
structure IsCombination (s : Finset ι) (weight : ι → ℝ) (a : ι → Dual ℝ) (x : Dual ℝ) : Prop where
  re : ∀ k ∈ s, (a k).re = x.re
  eps : ∑ k ∈ s, (a k).eps * weight k = x.eps

/-- What is made of two combinations is one, if all of the family have the same slopes in it. -/
theorem IsCombination.of_slopes (ha : IsCombination s weight a x) (hb : IsCombination s weight b y) (p q : ℝ)
    (hre : ∀ k ∈ s, (c k).re = z.re) (hc : ∀ k ∈ s, (c k).eps = (a k).eps * p + (b k).eps * q)
    (hz : x.eps * p + y.eps * q = z.eps) : IsCombination s weight c z where
  re := hre
  eps := by
    calc ∑ k ∈ s, (c k).eps * weight k = ∑ k ∈ s, ((a k).eps * weight k * p + (b k).eps * weight k * q) :=
          Finset.sum_congr rfl fun k hk => by rw [hc k hk]; ring
      _ = z.eps := by rw [Finset.sum_add_distrib, ← Finset.sum_mul, ← Finset.sum_mul, ha.eps, hb.eps, hz]

theorem isCombination_lift (s : Finset ι) (weight : ι → ℝ) (r : ℝ) :
    IsCombination s weight (fun _ => lift r) (lift r) where
  re _ _ := rfl
  eps := Finset.sum_eq_zero fun _ _ => zero_mul _

/-- The slopes of a product and of a quotient are made of real parts. -/
theorem respects_isCombination (s : Finset ι) (weight : ι → ℝ) (base : ι) :
    Respects (IsCombination s weight) (fun _ => True) base where
  zero := isCombination_lift s weight 0
  one := isCombination_lift s weight 1
  neg {a x} ha := by
    refine ha.of_slopes ha (-1) 0 (fun k hk => congrArg (-·) (ha.re k hk)) (fun k _ => ?_) ?_
    · change -(a k).eps = _
      ring
    · change _ = -x.eps
      ring
  add {a b x y} ha hb := by
    refine ha.of_slopes hb 1 1 (fun k hk => congrArg₂ (· + ·) (ha.re k hk) (hb.re k hk)) (fun k _ => ?_) ?_
    · rw [eps_add]
      ring
    · rw [eps_add]
      ring
  sub {a b x y} ha hb := by
    refine ha.of_slopes hb 1 (-1) (fun k hk => congrArg₂ (· - ·) (ha.re k hk) (hb.re k hk)) (fun k _ => ?_) ?_
    · rw [eps_sub]
      ring
    · rw [eps_sub]
      ring
  mul {a b x y} ha hb := by
    refine ha.of_slopes hb y.re x.re (fun k hk => congrArg₂ (· * ·) (ha.re k hk) (hb.re k hk)) (fun k hk => ?_) rfl
    rw [eps_mul, ha.re k hk, hb.re k hk]
  div {a b x y} _ ha hb := by
    refine ha.of_slopes hb (y.re * (1 / y.re) * (1 / y.re)) (-x.re * (1 / y.re) * (1 / y.re)) (fun k hk => ?_)
      (fun k hk => ?_) ?_
    · rw [re_div, re_div, ha.re k hk, hb.re k hk]
    · rw [eps_div, ha.re k hk, hb.re k hk]
      ring
    · rw [eps_div]
      ring

end Dual

/-! ## Directions -/

/-- The dual parts of blocks, by block and position; what is missing is zero. -/
noncomputable def direction (duals : List (List (Dual ℝ))) (b i : Nat) : ℝ := ((duals.getD b []).getD i 0).eps

/-- The point of a line at `t`, given by where it is at zero and by its slope. -/
def Dual.at (t : ℝ) (a : Dual ℝ) : ℝ := a.re + t * a.eps

/-- The Jacobian times a direction. A component is the sum over the blocks of its row in the matrix of the block times
the part of the direction in the block. -/
noncomputable def Linearization.along (l : Linearization ℝ) (δ : Nat → Nat → ℝ) : List ℝ :=
  (List.range l.residual.length).map fun row =>
    ∑ b ∈ Finset.range l.jacobians.length, ∑ i ∈ Finset.range ((l.jacobians.getD b []).getD row []).length,
      ((l.jacobians.getD b []).getD row []).getD i 0 * δ b i

/-- The derivatives of the residual by one scalar of one block. -/
def Linearization.column (l : Linearization ℝ) (b col : Nat) : List ℝ :=
  (List.range l.residual.length).map fun row => ((l.jacobians.getD b []).getD row []).getD col 0

namespace Linearization

variable (l : Linearization ℝ)

@[simp] theorem length_along (δ : Nat → Nat → ℝ) : (l.along δ).length = l.residual.length := by
  simp [along]

theorem along_add_smul (p q : ℝ) (δ ε : Nat → Nat → ℝ) :
    l.along (p • δ + q • ε) = List.zipWith (fun u v => p * u + q * v) (l.along δ) (l.along ε) := by
  simp only [along, List.zipWith_map, List.zipWith_self]
  refine List.map_congr_left fun row _ => ?_
  simp only [Finset.mul_sum, ← Finset.sum_add_distrib, Pi.add_apply, Pi.smul_apply, smul_eq_mul]
  refine Finset.sum_congr rfl fun b _ => Finset.sum_congr rfl fun i _ => ?_
  ring

/-- A column of the Jacobian is the derivative along the direction of one scalar. -/
theorem along_single (b col : Nat) : l.along (Pi.single b (Pi.single col 1)) = l.column b col := by
  refine List.map_congr_left fun row _ => ?_
  rw [Finset.sum_eq_single b, Finset.sum_eq_single col, Pi.single_eq_same, Pi.single_eq_same, mul_one]
  · intro i _ hi
    rw [Pi.single_eq_same, Pi.single_eq_of_ne hi, mul_zero]
  · intro hcol
    rw [List.getD_eq_default _ _ (not_lt.1 fun h => hcol (Finset.mem_range.2 h)), zero_mul]
  · intro c _ hc
    refine Finset.sum_eq_zero fun i _ => ?_
    rw [Pi.single_eq_of_ne hc, Pi.zero_apply, mul_zero]
  · intro hb
    have hmissing : l.jacobians.getD b [] = [] := List.getD_eq_default _ _ (not_lt.1 fun h => hb (Finset.mem_range.2 h))
    rw [hmissing]
    rfl

end Linearization

/-- The scalars of blocks, by block and position. -/
def places {α : Type} (blocks : List (List α)) : Finset (Σ _ : Nat, Nat) :=
  (Finset.range blocks.length).sigma fun b => Finset.range (blocks.getD b []).length

theorem mem_places {α : Type} {blocks : List (List α)} {i j : Nat} :
    ⟨i, j⟩ ∈ places blocks ↔ ∃ values x, blocks[i]? = some values ∧ values[j]? = some x := by
  simp only [places, Finset.mem_sigma, Finset.mem_range]
  constructor
  · rintro ⟨hi, hj⟩
    rw [List.getD_eq_getElem _ _ hi] at hj
    exact ⟨blocks[i], blocks[i][j], List.getElem?_eq_getElem hi, List.getElem?_eq_getElem hj⟩
  · rintro ⟨values, x, hi, hj⟩
    rw [List.getD_eq_getElem?_getD, hi]
    exact ⟨(List.getElem?_eq_some_iff.1 hi).1, (List.getElem?_eq_some_iff.1 hj).1⟩

section Seeds

variable {blocks : List (List ℝ)} {duals : List (List (Dual ℝ))} (hre : duals.map (List.map Dual.re) = blocks)

include hre

theorem direction_eq_zero {i j : Nat} (h : ⟨i, j⟩ ∉ places blocks) : direction duals i j = 0 := by
  simp only [direction, List.getD_eq_getElem?_getD]
  cases hi : duals[i]? with
  | none => rfl
  | some entries =>
    cases hj : entries[j]? with
    | none => simp [hj]
    | some d =>
      refine absurd (mem_places.2 ⟨entries.map Dual.re, d.re, ?_, ?_⟩) h
      · rw [← hre, List.getElem?_map, hi]
        rfl
      · rw [List.getElem?_map, hj]
        rfl

/-- Blocks of duals are combined of blocks with single seeds, by their direction. -/
theorem blocksRel_isCombination :
    BlocksRel (Dual.IsCombination (places blocks) fun k => direction duals k.1 k.2)
      (fun k => seedBlocks blocks k.1 k.2) duals := by
  intro i j
  have hvalue : (blocks.getD i []).getD j 0 = ((duals.getD i []).getD j 0).re := by
    rw [← hre, getD_map_map rfl]
  have hseed : ∀ k ∈ places blocks, ((seedBlocks blocks k.1 k.2).getD i []).getD j 0 =
      ⟨((duals.getD i []).getD j 0).re, if i = k.1 ∧ j = k.2 then 1 else 0⟩ := fun k hk => by
    obtain ⟨values, x, hb, hcol⟩ := mem_places.1 hk
    rw [getD_seedBlocks hb hcol, hvalue]
  -- of the family only the member that is seeded at this very scalar has a dual part here
  have hother : ∀ k ∈ places blocks, k ≠ ⟨i, j⟩ →
      (((seedBlocks blocks k.1 k.2).getD i []).getD j 0).eps * direction duals k.1 k.2 = 0 := fun k hk hne => by
    have hplace : ¬(i = k.1 ∧ j = k.2) := fun h => hne (by rw [h.1, h.2])
    rw [hseed k hk, if_neg hplace, zero_mul]
  refine ⟨fun k hk => by rw [hseed k hk], ?_⟩
  by_cases hmem : ⟨i, j⟩ ∈ places blocks
  · rw [Finset.sum_eq_single_of_mem _ hmem hother, hseed _ hmem, if_pos ⟨rfl, rfl⟩, one_mul]
    rfl
  · rw [Finset.sum_eq_zero fun k hk => hother k hk fun h => hmem (h ▸ hk)]
    exact (direction_eq_zero hre hmem).symm

end Seeds

namespace Factor

/-! ## Linearizations -/

@[simp] theorem blockSizes_map {α β : Type} (φ : α → β) (f : Factor α) : (f.map φ).blockSizes = f.blockSizes := by
  cases f <;> rfl

@[simp] theorem residualDim_map {α β : Type} (φ : α → β) (f : Factor α) : (f.map φ).residualDim = f.residualDim := by
  cases f <;> rfl

/-- The residual and its Jacobian, whatever the sizes of the blocks are. -/
def linearization {α : Type} [Scalar α] (f : Factor α) (blocks : List (List α)) : Linearization α :=
  ⟨f.residual blocks, blocks.mapIdx fun i values => f.jacobian blocks i values.length⟩

theorem linearize_eq {α : Type} [Scalar α] {f : Factor α} {blocks : List (List α)}
    (hsizes : f.blockSizes = blocks.map List.length) : f.linearize blocks = .ok (f.linearization blocks) := by
  have hcheck : f.checkBlocks (blocks.map List.length) = .ok () := checkBlocks_eq_ok.2 hsizes
  rw [linearize, hcheck]
  rfl

variable (f : Factor ℝ) {blocks : List (List ℝ)} {duals : List (List (Dual ℝ))}

/-- A row of a matrix of the Jacobian is made of dual parts under single seeds. -/
theorem row_linearization {b row : Nat} (hb : b < blocks.length) (hrow : row < f.residualDim) :
    ((f.linearization blocks).jacobians.getD b []).getD row [] = (List.range (blocks.getD b []).length).map fun i =>
      (((f.map Dual.lift).residual (seedBlocks blocks b i)).getD row 0).eps := by
  have hmatrix : (f.linearization blocks).jacobians.getD b [] = f.jacobian blocks b (blocks.getD b []).length := by
    rw [linearization, List.getD_eq_getElem _ _ (by simpa using hb), List.getElem_mapIdx, List.getD_eq_getElem _ _ hb]
  rw [hmatrix, jacobian, List.getD_eq_getElem _ _ (by simpa using hrow), List.getElem_map, List.getElem_range,
    List.map_map]
  refine List.map_congr_left fun i _ => ?_
  exact List.getD_map _ (0 : Dual ℝ) Dual.eps

theorem getD_along (blocks : List (List ℝ)) (δ : Nat → Nat → ℝ) {row : Nat} (hrow : row < f.residualDim) :
    ((f.linearization blocks).along δ).getD row 0 = ∑ k ∈ places blocks,
      (((f.map Dual.lift).residual (seedBlocks blocks k.1 k.2)).getD row 0).eps * δ k.1 k.2 := by
  have hlength : (f.linearization blocks).jacobians.length = blocks.length := List.length_mapIdx
  have hresidual : row < (f.linearization blocks).residual.length := hrow.trans_eq (f.length_residual blocks).symm
  rw [Linearization.along, List.getD_eq_getElem _ _ (by simpa using hresidual), List.getElem_map, List.getElem_range,
    hlength, places, Finset.sum_sigma]
  refine Finset.sum_congr rfl fun b hb => ?_
  rw [f.row_linearization (Finset.mem_range.1 hb) hrow, List.length_map, List.length_range]
  refine Finset.sum_congr rfl fun i hi => ?_
  rw [List.getD_eq_getElem _ _ (by simpa using hi), List.getElem_map, List.getElem_range]

/-! ## Residuals at duals -/

theorem residual_re (hre : duals.map (List.map Dual.re) = blocks) :
    ((f.map Dual.lift).residual duals).map Dual.re = f.residual blocks := by
  have hconst : ∀ c : ℝ, (Dual.lift c).re = id c := fun _ => rfl
  have hmap := Dual.embeds_re.residual hconst f (fun x (_ : x ∈ (f.map Dual.lift).divisors duals) => trivial)
  rw [map_id, hre] at hmap
  exact hmap.symm

theorem residual_eps (hre : duals.map (List.map Dual.re) = blocks) :
    ((f.map Dual.lift).residual duals).map Dual.eps = (f.linearization blocks).along (direction duals) := by
  have hlength : (((f.map Dual.lift).residual duals).map Dual.eps).length = f.residualDim := by
    rw [List.length_map, length_residual, residualDim_map]
  have halong : ((f.linearization blocks).along (direction duals)).length = f.residualDim :=
    ((f.linearization blocks).length_along _).trans (f.length_residual blocks)
  refine eq_of_getD 0 (hlength.trans halong.symm) fun row => ?_
  rcases lt_or_ge row f.residualDim with hrow | hrow
  · have hconst : ∀ c : ℝ, Dual.IsCombination (places blocks) (fun k => direction duals k.1 k.2)
        (fun _ => Dual.lift c) (Dual.lift c) := Dual.isCombination_lift _ _
    have hcombination := (Dual.respects_isCombination _ _ ⟨0, 0⟩).residual hconst f (blocksRel_isCombination hre)
      (fun _ _ => trivial) row
    rw [f.getD_along blocks _ hrow, hcombination.eps]
    exact List.getD_map _ (0 : Dual ℝ) Dual.eps
  · rw [List.getD_eq_default _ _ (hlength.trans_le hrow), List.getD_eq_default _ _ (halong.trans_le hrow)]

/-- A residual at duals is the plain one with the Jacobian times the dual parts. -/
theorem residual_dual (hre : duals.map (List.map Dual.re) = blocks) :
    (f.map Dual.lift).residual duals =
      List.zipWith Dual.mk (f.residual blocks) ((f.linearization blocks).along (direction duals)) := by
  rw [← f.residual_re hre, ← f.residual_eps hre, List.zipWith_map, List.zipWith_self]
  exact (List.map_id _).symm

/-! ## Along a line -/

/-- Blocks of duals are the jets of the lines through them. -/
theorem blocksRel_isJet (duals : List (List (Dual ℝ))) :
    BlocksRel (Dual.IsJet 0) (fun t => duals.map (List.map (Dual.at t))) duals := by
  intro i j
  have hzero : ∀ t, Dual.at t 0 = 0 := fun t => by simp [Dual.at]
  simp only [getD_map_map (hzero _)]
  generalize (duals.getD i []).getD j 0 = d
  refine ⟨?_, ?_⟩
  · simp [Dual.at]
  · simpa [Dual.at] using (hasDerivAt_id (0 : ℝ)).mul_const d.eps |>.const_add d.re

theorem hasDerivAt_along (hre : duals.map (List.map Dual.re) = blocks) (hdivisors : ∀ x ∈ f.divisors blocks, x ≠ 0)
    (row : Nat) :
    HasDerivAt (fun t => (f.residual (duals.map (List.map (Dual.at t)))).getD row 0)
      (((f.linearization blocks).along (direction duals)).getD row 0) 0 := by
  have hconst : ∀ c : ℝ, Dual.IsJet 0 (fun _ => id c) (Dual.lift c) := fun c => ⟨rfl, hasDerivAt_const 0 c⟩
  have hbase : duals.map (List.map (Dual.at 0)) = blocks := by
    rw [← hre]
    refine List.map_congr_left fun values _ => List.map_congr_left fun a _ => ?_
    rw [Dual.at, zero_mul, add_zero]
  have hjet := (Dual.respects_isJet 0).residual hconst f (blocksRel_isJet duals)
    (by simpa only [hbase, map_id] using hdivisors) row
  -- the derivative of the jet is the dual part, and that is the Jacobian times the direction
  have heps : ((f.linearization blocks).along (direction duals)).getD row 0 =
      (((f.map Dual.lift).residual duals).getD row 0).eps := by
    rw [← f.residual_eps hre]
    exact List.getD_map _ (0 : Dual ℝ) Dual.eps
  rw [heps]
  simpa only [map_id] using hjet.eps

/-! ## Several directions at once -/

section Several

variable {κ : Type} {multis : List (List (MultiDual κ ℝ))} (k : κ)

theorem map_re_part (hre : multis.map (List.map MultiDual.re) = blocks) :
    (multis.map (List.map (MultiDual.part k))).map (List.map Dual.re) = blocks := by
  rw [← hre, List.map_map]
  refine List.map_congr_left fun values _ => ?_
  rw [Function.comp_apply, List.map_map]
  rfl

theorem residual_part : ((f.map MultiDual.lift).residual multis).map (MultiDual.part k) =
    (f.map Dual.lift).residual (multis.map (List.map (MultiDual.part k))) :=
  ((MultiDual.embeds_part k).residual (fun _ => rfl) f fun _ _ => trivial).symm

end Several

/-- Where nothing divides by zero, evaluating at blocks of duals gives the residual and its derivative along their
dual parts, and that is the Jacobian times these. It is linear in them, and it does not matter how many directions are
carried at once; along that of a single scalar it is the scalar's column of the Jacobian. -/
theorem linearize_along (hsizes : f.blockSizes = blocks.map List.length) (hdivisors : ∀ x ∈ f.divisors blocks, x ≠ 0) :
    ∃ l, f.linearize blocks = .ok l ∧ f.evaluate blocks = .ok l.residual ∧
      (∀ duals, duals.map (List.map Dual.re) = blocks →
        (f.map Dual.lift).evaluate duals = .ok (List.zipWith Dual.mk l.residual (l.along (direction duals))) ∧
          ∀ row, HasDerivAt (fun t => (f.residual (duals.map (List.map (Dual.at t)))).getD row 0)
            ((l.along (direction duals)).getD row 0) 0) ∧
      (∀ (p q : ℝ) (δ ε : Nat → Nat → ℝ),
        l.along (p • δ + q • ε) = List.zipWith (fun u v => p * u + q * v) (l.along δ) (l.along ε)) ∧
      ∀ {κ : Type} (multis : List (List (MultiDual κ ℝ))), multis.map (List.map MultiDual.re) = blocks →
        ∃ r, (f.map MultiDual.lift).evaluate multis = .ok r ∧ ∀ k,
          r.map (MultiDual.part k) =
              List.zipWith Dual.mk l.residual (l.along (direction (multis.map (List.map (MultiDual.part k))))) ∧
            ∀ b col, direction (multis.map (List.map (MultiDual.part k))) = Pi.single b (Pi.single col 1) →
              r.map (fun a => a.eps k) = l.column b col := by
  refine ⟨f.linearization blocks, linearize_eq hsizes, evaluate_eq_ok.2 ⟨hsizes, rfl⟩, fun duals hre => ⟨?_, ?_⟩,
    (f.linearization blocks).along_add_smul, fun multis hre => ⟨_, evaluate_eq_ok.2 ⟨?_, rfl⟩, fun k => ⟨?_, ?_⟩⟩⟩
  · have hlengths : duals.map List.length = blocks.map List.length := by
      simp [← hre]
    exact evaluate_eq_ok.2 ⟨by rw [blockSizes_map, hsizes, hlengths], f.residual_dual hre⟩
  · exact f.hasDerivAt_along hre hdivisors
  · have hlengths : multis.map List.length = blocks.map List.length := by
      simp [← hre]
    rw [blockSizes_map, hsizes, hlengths]
  · rw [f.residual_part k]
    exact f.residual_dual (map_re_part k hre)
  · intro b col hdirection
    rw [← Linearization.along_single, ← hdirection, ← f.residual_eps (map_re_part k hre), ← f.residual_part k,
      List.map_map]
    rfl

/-- A pixel of a point at depth two, differentiated along one direction, and by two coordinates of the point at once. -/
theorem linearize_along_centered :
    ∃ l, centered.linearize [[1, 0, 2], [1, 0, 0]] = .ok l ∧
      (centered.map Dual.lift).evaluate [[⟨1, 3⟩, ⟨0, 4⟩, ⟨2, 5⟩], [⟨1, 6⟩, ⟨0, 7⟩, ⟨0, 8⟩]] =
        .ok (List.zipWith Dual.mk l.residual
          (l.along (direction [[⟨1, 3⟩, ⟨0, 4⟩, ⟨2, 5⟩], [⟨1, 6⟩, ⟨0, 7⟩, ⟨0, 8⟩]]))) ∧
      ∃ r, (centered.map MultiDual.lift).evaluate
          [[⟨1, ![1, 0]⟩, ⟨0, ![0, 0]⟩, ⟨2, ![0, 1]⟩], [⟨1, ![0, 0]⟩, ⟨0, ![0, 0]⟩, ⟨0, ![0, 0]⟩]] = .ok r ∧
        r.map (fun a => a.eps 0) = l.column 0 0 ∧ r.map (fun a => a.eps 1) = l.column 0 2 := by
  have hsizes : centered.blockSizes = ([[1, 0, 2], [1, 0, 0]] : List (List ℝ)).map List.length := rfl
  obtain ⟨l, hlinearize, -, hduals, -, hmultis⟩ := centered.linearize_along hsizes divisors_centered
  obtain ⟨r, hr, hparts⟩ := hmultis
    [[⟨1, ![1, 0]⟩, ⟨0, ![0, 0]⟩, ⟨2, ![0, 1]⟩], [⟨1, ![0, 0]⟩, ⟨0, ![0, 0]⟩, ⟨0, ![0, 0]⟩]] rfl
  refine ⟨l, hlinearize, (hduals _ rfl).1, r, hr, (hparts 0).2 0 0 ?_, (hparts 1).2 0 2 ?_⟩ <;> funext b i <;>
    rcases b with _ | _ | b <;> rcases i with _ | _ | _ | i <;>
    simp [direction, MultiDual.part]

end Factor

end MultiView
