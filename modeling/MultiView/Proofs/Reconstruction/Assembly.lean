import MultiView.Proofs.Check
import MultiView.Proofs.Reconstruction.Keys

/-!
# Growing an assembled problem

One key more is one parameter block more (`Measurement.assemble_concat`), and one measurement more is one residual block
more (`Measurement.assemble_append`), as long as measurements read blocks of the keys only (`Measurement.Within`).
-/

namespace MultiView

namespace Measurement

variable {κ α : Type}

/-- The keys of all blocks that measurements read are in a list. -/
def Within (ms : List (Measurement κ α)) (ks : List κ) : Prop := ∀ m ∈ ms, m.reads ⊆ ks

variable {ms : List (Measurement κ α)} {ks js : List κ}

theorem within_nil (ks : List κ) : Within ([] : List (Measurement κ α)) ks := by simp [Within]

theorem Within.extend (h : Within ms ks) (hext : ks <+: js) : Within ms js :=
  fun m hm => List.Subset.trans (h m hm) hext.subset

theorem within_append {ns : List (Measurement κ α)} : Within (ms ++ ns) ks ↔ Within ms ks ∧ Within ns ks := by
  simp only [Within, List.mem_append, or_imp, forall_and]

variable [DecidableEq κ] {spec : κ → BlockSpec α} {loss : RobustLoss α}

/-- Measurements are within the keys once the keys that they read are added. -/
theorem Within.append (h : Within ms ks) {new : List κ} {ns : List (Measurement κ α)}
    (hnew : ∀ js, ks <+: js → new ⊆ js → Within ns js) : Within (ms ++ ns) (addKeys ks new) :=
  within_append.2 ⟨h.extend (prefix_addKeys ks new),
    hnew _ (prefix_addKeys ks new) fun _ hk => mem_addKeys.2 (.inr hk)⟩

/-- Measurements within a list of keys have the same residual blocks for a longer list. -/
theorem Within.map_block (h : Within ms ks) (hext : ks <+: js) : ms.map (block loss js) = ms.map (block loss ks) := by
  refine List.map_congr_left fun m hm => ?_
  rw [block, block, List.map_congr_left fun k hk => idxOf_extend hext (h m hm hk)]

variable [BlockKey κ]

theorem assemble_append (m : Measurement κ α) : assemble spec loss ks (ms ++ [m]) =
    { assemble spec loss ks ms with
      problem := (assemble spec loss ks ms).problem.addResidual (m.block loss ks) } := by
  simp [assemble, Problem.addResidual]

theorem assemble_concat [LawfulBlockKey κ] (h : Within ms ks) {k : κ} (hk : k ∉ ks) :
    assemble spec loss (ks ++ [k]) ms =
      { problem := (assemble spec loss ks ms).problem.addParam (BlockKey.name k) (spec k).value.length
          (spec k).manifold (spec k).fixed none
        initial := (assemble spec loss ks ms).initial.insert (BlockKey.name k) (spec k).value } := by
  have hname : BlockKey.name k ∉ (ks.map fun k => (BlockKey.name k, (spec k).value)).map (·.1) := by
    intro hmem
    obtain ⟨j, hj, hjk⟩ : ∃ j ∈ ks, BlockKey.name j = BlockKey.name k := by simpa using hmem
    exact hk (LawfulBlockKey.name_injective hjk ▸ hj)
  have hblocks : ms.map (block loss (ks ++ [k])) = ms.map (block loss ks) := h.map_block (List.prefix_append ks [k])
  simp [assemble, Problem.addParam, Assoc.insert, Assoc.insertInto_of_not_mem hname, List.zipIdx_append, paramBlock,
    hblocks]

end Measurement

end MultiView
