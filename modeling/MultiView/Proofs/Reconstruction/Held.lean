import MultiView.Proofs.Reconstruction.ReadBack
import MultiView.Proofs.Scalar.Real

/-!
# What solutions hold constant, and problems that resume from them

An optimizer that holds constant what is registered so also holds constant what the keys of a plan say
(`Measurement.holds_of_solve`), since the unknown of a key has the mask of the key's contents; and rotations of norm one
keep it (`Measurement.unitRotations_of_solve`). An optimizer that writes a parameter of a camera that may move is one
(`Measurement.callsKeep_write`).

A plan with the same keys and measurements, whose contents are read back from the solved values, has the same problem,
and the solved values, their rotations scaled to unit length, as its initial ones (`Measurement.rebuilt_of_solve`). In
exact arithmetic and for rotations of norm one these are the solved values themselves, whose cost is the solution's
final cost (`Formulation.Rebuilt.resumed`).
-/

namespace MultiView

/-! ## Lists with replaced parts -/

section Lists

variable {σ τ υ : Type} {xs : List σ} {ys : List τ} {update : σ → τ → σ}

theorem length_eq_of_zipIdx {R : σ × Nat → τ → Prop} (h : List.Forall₂ R xs.zipIdx ys) : ys.length = xs.length := by
  rw [← h.length_eq, List.length_zipIdx]

/-- A list each of whose elements is determined by what it stands beside. -/
theorem eq_of_forall₂ {R : σ → τ → Prop} {zs : List τ} (h : List.Forall₂ R xs ys)
    (hz : List.Forall₂ (fun x z => ∀ y, R x y → y = z) xs zs) : ys = zs := by
  induction h generalizing zs with
  | nil => cases hz; rfl
  | cons hx _ ih =>
    cases hz with
    | cons hxz hrest => rw [hxz _ hx, ih hrest]

theorem exists_getElem?_of_zipIdx {R : σ × Nat → τ → Prop} (h : List.Forall₂ R xs.zipIdx ys) {i : Nat} {x : σ}
    (hx : xs[i]? = some x) : ∃ y, ys[i]? = some y ∧ R (x, i) y :=
  exists_getElem?_right h (getElem?_zipIdx_eq_some.2 ⟨hx, rfl⟩)

/-- A list whose elements are those at the same positions. -/
theorem eq_of_zipIdx {R : σ × Nat → σ → Prop} {zs : List σ} (h : List.Forall₂ R xs.zipIdx zs)
    (heq : ∀ i x z, xs[i]? = some x → R (x, i) z → z = x) : zs = xs := by
  refine List.ext_getElem? fun i => ?_
  cases hx : xs[i]? with
  | none => rwa [List.getElem?_eq_none_iff, length_eq_of_zipIdx h, ← List.getElem?_eq_none_iff]
  | some x =>
    obtain ⟨z, hz, hread⟩ := exists_getElem?_of_zipIdx h hx
    rw [hz, heq i x z hx hread]

/-- Functions that do not see what is replaced, at each position. -/
theorem map_zipIdx_zipWith {f g : σ × Nat → υ} (hlength : ys.length = xs.length)
    (h : ∀ i x y, xs[i]? = some x → ys[i]? = some y → f (update x y, i) = g (x, i)) :
    (List.zipWith update xs ys).zipIdx.map f = xs.zipIdx.map g := by
  refine List.ext_getElem? fun i => ?_
  simp only [List.getElem?_map, List.getElem?_zipIdx, List.getElem?_zipWith, Nat.zero_add, Option.map_map]
  cases hx : xs[i]? with
  | none => rfl
  | some x =>
    have hi : i < ys.length := hlength ▸ (List.getElem?_eq_some_iff.1 hx).1
    have hy : ys[i]? = some ys[i] := List.getElem?_eq_getElem hi
    rw [hy]
    exact congrArg some (h i x ys[i] hx hy)

theorem map_zipWith_of_forall {f : σ → υ} (hlength : ys.length = xs.length) (h : ∀ x y, f (update x y) = f x) :
    (List.zipWith update xs ys).map f = xs.map f := by
  have hmap : (List.zipWith update xs ys).zipIdx.map (fun x => f x.1) = xs.zipIdx.map fun x => f x.1 :=
    map_zipIdx_zipWith hlength fun i x y _ _ => h x y
  have hfst : ∀ zs : List σ, zs.zipIdx.map (fun x => f x.1) = zs.map f := fun zs => by
    rw [← Function.comp_def f Prod.fst, ← List.map_map, List.zipIdx_map_fst]
  rwa [hfst, hfst] at hmap

/-- An element with a replaced part comes from an element. -/
theorem exists_of_mem_zipWith {z : σ} (h : z ∈ List.zipWith update xs ys) :
    ∃ x ∈ xs, ∃ y ∈ ys, z = update x y := by
  rw [← List.map_uncurry_zip_eq_zipWith] at h
  obtain ⟨⟨x, y⟩, hxy, rfl⟩ := List.mem_map.1 h
  exact ⟨x, (List.of_mem_zip hxy).1, y, (List.of_mem_zip hxy).2, rfl⟩

end Lists

variable {κ α : Type}

/-! ## Held contents -/

/-- Has a value the length of a block's contents, and does it agree with them where they are held constant? -/
structure BlockSpec.Holds (b : BlockSpec α) (y : List α) : Prop where
  length : y.length = b.value.length
  fixed : ∀ i, b.fixed.isFixed i = true → y[i]? = b.value[i]?

/-- A block that is held constant as a whole keeps its value. -/
theorem BlockSpec.Holds.eq_value {b : BlockSpec α} {y : List α} (h : b.Holds y)
    (hall : ∀ i < b.value.length, b.fixed.isFixed i = true) : y = b.value := by
  refine List.ext_getElem? fun i => ?_
  by_cases hi : i < b.value.length
  · exact h.fixed i (hall i hi)
  · have hlength := h.length
    rw [List.getElem?_eq_none (by omega), List.getElem?_eq_none (by omega)]

theorem BlockSpec.isFixed_mask {dim i : Nat} (hi : i < dim) : (mask true dim).isFixed i = true := by
  simpa [mask] using hi

/-! ## Replaced contents -/

/-- Models are found by position. -/
theorem Camera.modelAt_congr {cameras cameras' : List (Camera α)}
    (h : List.Forall₂ (fun x c => c.model = x.1.model) cameras.zipIdx cameras') (i : Nat) :
    modelAt cameras' i = modelAt cameras i := by
  cases hc : cameras[i]? with
  | none =>
    have hnone : cameras'[i]? = none := by
      rw [List.getElem?_eq_none_iff] at hc ⊢
      rwa [length_eq_of_zipIdx h]
    rw [modelAt, modelAt, hc, hnone]
  | some c =>
    obtain ⟨c', hc', hmodel⟩ := exists_getElem?_of_zipIdx h hc
    rw [modelAt_eq hc, modelAt_eq hc', hmodel]

/-- Contents of the same kind, in place of others. -/
structure BlockSpec.Replaces (b' b : BlockSpec α) : Prop where
  length : b'.value.length = b.value.length
  manifold : b'.manifold = b.manifold
  fixed : b'.fixed = b.fixed

theorem BlockSpec.replaces_camera [Scalar α] {c c' : Camera α} (hc : c.Valid) (hc' : c'.Valid)
    (hmodel : c'.model = c.model) (refine : Refinement) :
    (BlockSpec.camera refine c').Replaces (BlockSpec.camera refine c) :=
  ⟨hc'.count.trans (hmodel ▸ hc.count.symm), rfl, congrArg refine.mask hmodel⟩

/-- Contents that were read back in place of others: those of a solved block, a rotation scaled to unit length. -/
structure BlockSpec.ReadBack [Scalar α] (b' b : BlockSpec α) (solved : Option (List α)) : Prop extends
    b'.Replaces b where
  rotation : b.manifold = .so3 → ∃ q : Quat α, solved = some q.toList ∧ b'.value = q.normalize.toList
  other : b.manifold ≠ .so3 → solved = some b'.value

/-! ## What is read back -/

/-- Is a parameter of a group that is not refined? -/
def Refinement.LeavesOut (refine : Refinement) (model : CameraModel) (i : Nat) : Prop :=
  refine.focal = false ∧ i ∈ model.focalIndices ∨ refine.principal = false ∧ i ∈ model.principalIndices ∨
    refine.extra = false ∧ i ∈ model.extraIndices

/-- The parameters of a group that is not refined are those from before. -/
theorem Camera.Refined.params_of_holds {v : Values α} {name : String} {used : Prop} {before after : Camera α}
    (h : Camera.Refined v name used before after) {refine : Refinement}
    (hholds : used → ∃ y, v.get? name = some y ∧ (BlockSpec.camera refine before).Holds y) :
    ∀ i, refine.LeavesOut before.model i → after.params[i]? = before.params[i]? := by
  intro i hi
  by_cases hused : used
  · obtain ⟨y, hy, hcamera⟩ := hholds hused
    obtain rfl := Option.some.inj ((h.solved hused).symm.trans hy)
    exact hcamera.fixed i (Refinement.isFixed_mask.2 hi)
  · rw [h.unused hused]

/-- A camera whose block has the value that it had is as it was. -/
theorem Camera.Refined.eq_of_stays {v : Values α} {name : String} {used : Prop} {before after : Camera α}
    (h : Camera.Refined v name used before after) (hstays : used → v.get? name = some before.params) :
    after = before := by
  by_cases hused : used
  · have hparams : after.params = before.params := Option.some.inj ((h.solved hused).symm.trans (hstays hused))
    exact congrArg₂ Camera.mk h.model hparams
  · exact h.unused hused

theorem Vec3.Refined.eq_of_stays {v : Values α} {name : String} {used : Prop} {before after : Vec3 α}
    (h : Vec3.Refined v name used before after) (hstays : used → v.get? name = some before.toList) :
    after = before := by
  by_cases hused : used
  · exact Vec3.toList_injective (Option.some.inj ((h.solved hused).symm.trans (hstays hused)))
  · exact h.unused hused

/-- A point that is held constant is as it was. -/
theorem Vec3.Refined.eq_of_holds {v : Values α} {name : String} {used : Prop} {before after : Vec3 α}
    (h : Vec3.Refined v name used before after)
    (hholds : used → ∃ y, v.get? name = some y ∧ (BlockSpec.point true before).Holds y) : after = before := by
  refine h.eq_of_stays fun hused => ?_
  obtain ⟨y, hy, hpoint⟩ := hholds hused
  rw [hy, hpoint.eq_value fun i hi => BlockSpec.isFixed_mask hi]
  rfl

section Poses

variable [Scalar α] {v : Values α} {rotation trans : String} {used : Prop}

theorem Pose.Refined.trans_solved {before after : Pose α} (h : Pose.Refined v rotation trans used before after)
    (hused : used) : v.get? trans = some after.trans.toList := by
  obtain ⟨-, -, -, htrans⟩ := h.solved hused
  exact htrans

/-- A pose whose blocks have the values that they had comes back with a unit rotation. -/
theorem Pose.Refined.eq_of_stays {before after : Pose α} (h : Pose.Refined v rotation trans used before after)
    (hused : used) (hrotation : v.get? rotation = some before.rot.toList)
    (htrans : v.get? trans = some before.trans.toList) : after = ⟨before.rot.normalize, before.trans⟩ := by
  obtain ⟨q, hq, hrot, -⟩ := h.solved hused
  obtain rfl := Quat.toList_injective (Option.some.inj (hq.symm.trans hrotation))
  exact Pose.ext hrot (Vec3.toList_injective (Option.some.inj ((h.trans_solved hused).symm.trans htrans)))

/-- A pose of a rotation of norm one whose blocks have the values that they had is as it was. -/
theorem Pose.Refined.eq_of_unmoved {v : Values ℝ} {before after : Pose ℝ}
    (h : Pose.Refined v rotation trans used before after) (hunit : before.rot.norm = 1)
    (hrotation : used → v.get? rotation = some before.rot.toList)
    (htrans : used → v.get? trans = some before.trans.toList) : after = before := by
  by_cases hused : used
  · rw [h.eq_of_stays hused (hrotation hused) (htrans hused), Quat.normalize_of_norm hunit]
  · exact h.unused hused

/-- A pose of a rotation of norm one comes back from blocks that are held constant. -/
theorem Pose.Refined.eq_of_holds {v : Values ℝ} {before after : Pose ℝ}
    (h : Pose.Refined v rotation trans used before after) (hunit : before.rot.norm = 1)
    (hrotation : used → ∃ y, v.get? rotation = some y ∧ (BlockSpec.rotation true before).Holds y)
    (htrans : used → ∃ y, v.get? trans = some y ∧ (BlockSpec.trans true before).Holds y) : after = before := by
  refine h.eq_of_unmoved hunit (fun hused => ?_) fun hused => ?_
  · obtain ⟨x, hx, hholds⟩ := hrotation hused
    obtain rfl := hholds.eq_value fun i hi => BlockSpec.isFixed_mask hi
    exact hx
  · obtain ⟨y, hy, hholds⟩ := htrans hused
    obtain rfl := hholds.eq_value fun i hi => BlockSpec.isFixed_mask hi
    exact hy

end Poses

/-! ## Values with unit rotations -/

/-- Are the values of a problem's rotation blocks unit quaternions? -/
def Values.UnitRotations (v : Values ℝ) (p : Problem ℝ) : Prop :=
  ∀ b ∈ p.params, b.manifold = .so3 → ∀ x, v.get? b.name = some x → (Quat.ofList x).norm = 1

variable [Scalar α]

/-- Are values those of others, with the rotations among a problem's blocks scaled to unit length? -/
structure Values.Normalizes (w : Values α) (p : Problem α) (v : Values α) : Prop where
  rotation : ∀ b ∈ p.params, b.manifold = .so3 →
    ∃ q : Quat α, v.get? b.name = some q.toList ∧ w.get? b.name = some q.normalize.toList
  other : ∀ name, (∀ b ∈ p.params, b.name = name → b.manifold ≠ .so3) → w.get? name = v.get? name

/-- Unit rotations do not change. -/
theorem Values.Normalizes.get?_eq {w v : Values ℝ} {p : Problem ℝ} (h : w.Normalizes p v) (hunit : v.UnitRotations p)
    (name : String) : w.get? name = v.get? name := by
  by_cases hrotation : ∃ b ∈ p.params, b.name = name ∧ b.manifold = .so3
  · obtain ⟨b, hb, rfl, hso3⟩ := hrotation
    obtain ⟨q, hq, hnormalized⟩ := h.rotation b hb hso3
    have hnorm : q.norm = 1 := hunit b hb hso3 q.toList hq
    rw [hnormalized, hq, Quat.normalize_of_norm hnorm]
  · exact h.other name fun b hb hname hso3 => hrotation ⟨b, hb, hname, hso3⟩

/-- The problem of what was read back from a solution: the problem that was solved, with the solved values as its
initial ones, but for the lengths of rotations. -/
structure Formulation.Rebuilt (f : Formulation α) (s : Solution α) (f' : Formulation α) : Prop where
  problem : f'.problem = f.problem
  initial : f'.initial.Normalizes f.problem s.params

/-- A problem that starts from a solution of another one: the problem is the same, its initial values are the solved
ones, and they cost what the solution says. -/
structure Formulation.Resumed (f : Formulation α) (s : Solution α) (f' : Formulation α) : Prop where
  problem : f'.problem = f.problem
  initial : ∀ name, f'.initial.get? name = s.params.get? name
  cost : f'.problem.cost f'.initial = .ok s.finalCost

/-- A problem that is rebuilt from solved values with unit rotations starts from the solution. -/
theorem Formulation.Rebuilt.resumed {f f' : Formulation ℝ} {s : Solution ℝ} (h : f.Rebuilt s f')
    (hunit : s.params.UnitRotations f.problem) (hcost : f.problem.cost s.params = .ok s.finalCost) :
    f.Resumed s f' where
  problem := h.problem
  initial := h.initial.get?_eq hunit
  cost := by
    rw [h.problem, Problem.cost, Problem.evaluate_congr fun b _ => h.initial.get?_eq hunit b.name]
    exact hcost

namespace Measurement

variable [DecidableEq κ] [BlockKey κ] [LawfulBlockKey κ] {spec : κ → BlockSpec α} {loss : RobustLoss α} {ks : List κ}
  {ms : List (Measurement κ α)} {k : κ}

/-! ## Unknowns of keys -/

section Compiled

variable {compiled : Compiled α} {start : Values α}
  (hcompile : (assemble spec loss ks ms).problem.compile (assemble spec loss ks ms).initial = .ok (compiled, start))

omit [LawfulBlockKey κ] in
include hcompile in
/-- A key has an unknown, which stands for its block. -/
theorem exists_unknown (hk : k ∈ ks) :
    ∃ u ∈ compiled.unknowns, u.StandsFor (paramBlock spec k (ks.idxOf k)) := by
  obtain ⟨hunknowns, -⟩ := Problem.standsFor_of_compile hcompile
  obtain ⟨u, hu, hstands⟩ := exists_getElem?_right hunknowns (params_idxOf hk)
  exact ⟨u, List.mem_of_getElem? hu, hstands⟩

omit [LawfulBlockKey κ] in
include hcompile in
/-- An unknown stands for the block of a key. -/
theorem exists_key_of_unknown {u : Unknown α} (hu : u ∈ compiled.unknowns) :
    ∃ k ∈ ks, ∃ i, u.StandsFor (paramBlock spec k i) := by
  obtain ⟨hunknowns, -⟩ := Problem.standsFor_of_compile hcompile
  obtain ⟨b, hb, hstands⟩ := exists_of_mem_right hunknowns hu
  obtain ⟨k, hk, i, rfl⟩ := mem_params hb
  exact ⟨k, hk, i, hstands⟩

include hcompile in
/-- Writing an entry of a key's value that is not held constant keeps what is held. -/
theorem holdsUnit_write {i : Nat} (hfree : (spec k).fixed.isFixed i = false) (hflat : (spec k).manifold ≠ .so3)
    (a : α) (x : List α) : compiled.HoldsUnit (BlockKey.name k) x (x.set i a) := by
  have hkey : ∀ u ∈ compiled.unknowns, u.name = BlockKey.name k → ∃ j, u.StandsFor (paramBlock spec k j) := by
    intro u hu hname
    obtain ⟨k', -, j, hstands⟩ := exists_key_of_unknown hcompile hu
    obtain rfl : k' = k := LawfulBlockKey.name_injective (hstands.name.symm.trans hname)
    exact ⟨j, hstands⟩
  refine ⟨⟨List.length_set, fun u hu hname j hj => ?_⟩, fun u hu hname hso3 => ?_⟩
  · obtain ⟨_, hstands⟩ := hkey u hu hname
    rw [hstands.fixed, paramBlock] at hj
    have hne : i ≠ j := fun h => by rw [h, hj] at hfree; cases hfree
    exact List.getElem?_set_ne hne
  · obtain ⟨_, hstands⟩ := hkey u hu hname
    exact absurd ((hstands.manifold .so3).1 hso3).2 hflat

omit [LawfulBlockKey κ] in
include hcompile in
theorem holds_of_compiled (hk : k ∈ ks) {y : List α} (h : compiled.Holds (BlockKey.name k) (spec k).value y) :
    (spec k).Holds y := by
  obtain ⟨u, hu, hstands⟩ := exists_unknown hcompile hk
  refine ⟨h.length, fun i hi => h.fixed u hu hstands.name i ?_⟩
  rw [hstands.fixed]
  exact hi

omit [LawfulBlockKey κ] in
include hcompile in
theorem norm_of_compiled (hk : k ∈ ks) {y : List α} (h : compiled.HoldsUnit (BlockKey.name k) (spec k).value y)
    (hrotation : (spec k).manifold = .so3) (hunit : (Quat.ofList (spec k).value).norm = 1) :
    (Quat.ofList y).norm = 1 := by
  -- a rotation that is held constant as a whole follows no manifold
  by_cases hall : ∀ i < (spec k).value.length, (spec k).fixed.isFixed i = true
  · rw [(holds_of_compiled hcompile hk h.toHolds).eq_value hall]
    exact hunit
  · obtain ⟨u, hu, hstands⟩ := exists_unknown hcompile hk
    have hcurved : (paramBlock spec k (ks.idxOf k)).Curved := ⟨by simp [paramBlock, hrotation], hall⟩
    exact h.unit u hu hstands.name ((hstands.manifold .so3).2 ⟨hcurved, hrotation⟩) hunit

end Compiled

/-! ## Solutions -/

variable {optimizer : Optimizer α} {solver : SolveOptions α} {s : Solution α}

/-- An optimizer that writes a parameter of a camera, one that may move, keeps what is held. -/
theorem callsKeep_write {refine : Refinement} {c : Camera α} (hspec : spec k = .camera refine c) {i : Nat}
    (hfree : (refine.mask c.model).isFixed i = false) (a : α) :
    (assemble spec loss ks ms).problem.CallsKeep (.moving (.write (BlockKey.name k) i a))
      (assemble spec loss ks ms).initial solver Compiled.HoldsUnit := by
  have hmask : (spec k).fixed.isFixed i = false := by rwa [hspec]
  have hflat : (spec k).manifold ≠ .so3 := by
    rw [hspec]
    nofun
  refine Problem.callsKeep_moving fun compiled start hcompile u _ x => ?_
  by_cases hname : u.name = BlockKey.name k
  · rw [hname, Move.value_write]
    exact holdsUnit_write hcompile hmask hflat a x
  · rw [Move.value_write_of_ne hname]
    exact Compiled.HoldsUnit.refl compiled u.name x

/-- Solved values agree with the contents of their keys where these are held constant. -/
theorem holds_of_solve
    (hkeeps : (assemble spec loss ks ms).problem.CallsKeep optimizer (assemble spec loss ks ms).initial solver
      Compiled.Holds)
    (hs : (assemble spec loss ks ms).problem.solve optimizer (assemble spec loss ks ms).initial solver = .ok s)
    (hk : k ∈ ks) : ∃ y, s.params.block? k = some y ∧ (spec k).Holds y := by
  obtain ⟨compiled, start, hcompile, -, hvalue⟩ :=
    rel_block?_of_solve Compiled.Holds.refl (fun _ _ _ _ _ => Compiled.Holds.trans) hkeeps hs
  obtain ⟨y, hy, hholds⟩ := hvalue k hk
  exact ⟨y, hy, holds_of_compiled hcompile hk hholds⟩

/-- Rotations of norm one are solved as such. -/
theorem unitRotations_of_solve {spec : κ → BlockSpec ℝ} {loss : RobustLoss ℝ} {ms : List (Measurement κ ℝ)}
    {optimizer : Optimizer ℝ} {solver : SolveOptions ℝ} {s : Solution ℝ}
    (hkeeps : (assemble spec loss ks ms).problem.CallsKeep optimizer (assemble spec loss ks ms).initial solver
      Compiled.HoldsUnit)
    (hs : (assemble spec loss ks ms).problem.solve optimizer (assemble spec loss ks ms).initial solver = .ok s)
    (hunit : ∀ k ∈ ks, (spec k).manifold = .so3 → (Quat.ofList (spec k).value).norm = 1) :
    s.params.UnitRotations (assemble spec loss ks ms).problem := by
  intro b hb hso3 x hx
  obtain ⟨k, hk, i, rfl⟩ := mem_params hb
  obtain ⟨compiled, start, hcompile, -, hvalue⟩ :=
    rel_block?_of_solve Compiled.HoldsUnit.refl (fun _ _ _ _ _ => Compiled.HoldsUnit.trans) hkeeps hs
  obtain ⟨y, hy, hholds⟩ := hvalue k hk
  obtain rfl := Option.some.inj (hx.symm.trans hy)
  exact norm_of_compiled hcompile hk hholds hso3 (hunit k hk hso3)

/-! ## Resuming -/

omit [BlockKey κ] [LawfulBlockKey κ] [Scalar α] in
/-- Contents of the same kind make the same problem. -/
theorem problem_assemble_congr [BlockKey κ] {spec' : κ → BlockSpec α} (h : ∀ k ∈ ks, (spec' k).Replaces (spec k)) :
    (assemble spec' loss ks ms).problem = (assemble spec loss ks ms).problem := by
  have hparams :
      ks.zipIdx.map (fun x => paramBlock spec' x.1 x.2) = ks.zipIdx.map fun x => paramBlock spec x.1 x.2 := by
    refine List.map_congr_left fun x hx => ?_
    have hx := h x.1 (List.fst_mem_of_mem_zipIdx hx)
    rw [paramBlock, hx.length, hx.manifold, hx.fixed, paramBlock]
  simp only [assemble, hparams]

/-- What is read back from a solution, under the same measurements. -/
theorem rebuilt_of_solve {spec' : κ → BlockSpec α}
    (hkeeps : (assemble spec loss ks ms).problem.CallsKeepLengths optimizer (assemble spec loss ks ms).initial solver)
    (hs : (assemble spec loss ks ms).problem.solve optimizer (assemble spec loss ks ms).initial solver = .ok s)
    (hread : ∀ k ∈ ks, (spec' k).ReadBack (spec k) (s.params.block? k)) :
    (assemble spec loss ks ms).Rebuilt s (assemble spec' loss ks ms) := by
  have hinitial : ∀ k ∈ ks, (assemble spec' loss ks ms).initial.get? (BlockKey.name k) = some (spec' k).value :=
    fun k hk => by rw [get?_initial, if_pos hk]
  refine ⟨problem_assemble_congr fun k hk => (hread k hk).toReplaces, fun b hb hso3 => ?_, fun name hother => ?_⟩
  · obtain ⟨k, hk, i, rfl⟩ := mem_params hb
    obtain ⟨q, hq, hvalue⟩ := (hread k hk).rotation hso3
    exact ⟨q, hq, (hinitial k hk).trans (congrArg some hvalue)⟩
  · by_cases hname : name ∈ ks.map BlockKey.name
    · obtain ⟨k, hk, rfl⟩ := List.mem_map.1 hname
      have hflat : (spec k).manifold ≠ .so3 := hother _ (List.mem_of_getElem? (params_idxOf hk)) rfl
      exact (hinitial k hk).trans ((hread k hk).other hflat).symm
    · rw [get?_initial_of_notMem hname, get?_of_solve_of_notMem hkeeps hs hname]

end Measurement

end MultiView
