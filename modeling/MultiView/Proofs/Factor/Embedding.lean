import Mathlib.Data.List.GetD
import MultiView.Proofs.Factor.Reads
import MultiView.Proofs.Factor.Transfer
import MultiView.Proofs.Scalar.Embedding

/-!
# Residuals in larger arithmetic

An embedding of scalars commutes with residuals, if what they divide by is regular (`Scalar.Embeds.residual`).
-/

namespace MultiView

/-- Lists of one length are equal by their entries. -/
theorem eq_of_getD {α : Type} {as bs : List α} (d : α) (hlength : as.length = bs.length)
    (h : ∀ i, as.getD i d = bs.getD i d) : as = bs :=
  List.ext_getElem hlength fun i ha hb => by
    have hi := h i
    rwa [List.getD_eq_getElem _ _ ha, List.getD_eq_getElem _ _ hb] at hi

variable {α β γ : Type} [Scalar α] [Scalar β] {φ : α → β}

/-- A scalar of mapped blocks. -/
theorem getD_map_map (hzero : φ 0 = 0) (blocks : List (List α)) (i j : Nat) :
    ((blocks.map (List.map φ)).getD i []).getD j 0 = φ ((blocks.getD i []).getD j 0) := by
  have hblock : (blocks.map (List.map φ)).getD i [] = (blocks.getD i []).map φ := List.getD_map _ [] (List.map φ)
  rw [hblock, ← hzero, List.getD_map]

namespace Scalar.Embeds

variable {regular : α → Prop} (h : Embeds φ regular)

include h

/-- Being the image is a relation between single numbers that arithmetic respects. -/
theorem respects : Respects (fun (a : Unit → α) (x : β) => φ (a ()) = x) regular () where
  zero := h.zero.symm
  one := h.one.symm
  neg := by rintro a _ rfl; exact (h.neg _).symm
  add := by rintro a b _ _ rfl rfl; exact (h.add _ _).symm
  sub := by rintro a b _ _ rfl rfl; exact (h.sub _ _).symm
  mul := by rintro a b _ _ rfl rfl; exact (h.mul _ _).symm
  div := by rintro a b _ _ hb rfl rfl; exact (h.div _ hb).symm

theorem residual {l : γ → α} {m : γ → β} (hconst : ∀ c, φ (l c) = m c) (f : Factor γ) {blocks : List (List α)}
    (hdivisors : ∀ x ∈ (f.map l).divisors blocks, regular x) :
    (f.map m).residual (blocks.map (List.map φ)) = ((f.map l).residual blocks).map φ := by
  have hblocks : BlocksRel (fun (a : Unit → α) (x : β) => φ (a ()) = x) (fun _ => blocks) (blocks.map (List.map φ)) :=
    fun i j => (getD_map_map h.zero.symm blocks i j).symm
  refine eq_of_getD 0 ?_ fun row => ?_
  · rw [List.length_map, Factor.length_residual, Factor.length_residual]
    cases f <;> rfl
  · rw [h.zero, List.getD_map, ← h.zero]
    exact (h.respects.residual hconst f hblocks hdivisors row).symm

end Scalar.Embeds

end MultiView
