import MultiView.Proofs.Camera.Valid
import MultiView.Proofs.Problem.WellFormed
import MultiView.Proofs.Reconstruction.Draft
import MultiView.Proofs.Solver.Compiled

/-!
# Assembled problems are well formed

A plan is `Consistent` if its keys differ, their contents are admissible, and measurements read contents that fit the
slots of their factors. Then the assembled problem is well formed (`Consistent.wellFormed`), and drafting it fails only
if there is no measurement (`Consistent.finish`). Initial values are of the problem's blocks
(`Measurement.isSome_initial_iff`) and fit them (`Measurement.initial_fits`). If the measurements together read every
key, the formulation is sound (`Consistent.sound`).
-/

namespace MultiView

variable {κ α : Type}

/-! ## Contents of blocks -/

/-- Contents that may be missing. -/
def BlockSpec.orBlank (b : Option (BlockSpec α)) : BlockSpec α := b.getD ⟨[], .euclidean, .free⟩

/-- A length that the manifold admits, and fixed positions of the block only. -/
structure BlockSpec.WellFormed (b : BlockSpec α) : Prop where
  dim : b.manifold.admits b.value.length = true
  fixed : ∀ i, b.fixed.isFixed i = true → i < b.value.length

/-- Does a block have the length and the manifold of a slot? -/
def BlockSpec.Fills (b : BlockSpec α) (slot : Slot) : Prop := b.value.length = slot.dim ∧ b.manifold = slot.manifold

/-- Can the optimizer step along the block's manifold, if the block moves at all? -/
def BlockSpec.Steppable (b : BlockSpec α) : Prop :=
  b.manifold = .euclidean ∨ b.fixed.isAllFixed b.value.length = true ∨ b.fixed.isEmpty = true

/-- Admissible contents along whose manifold the optimizer can step. -/
structure BlockSpec.Sound (b : BlockSpec α) : Prop where
  wellFormed : b.WellFormed
  steppable : b.Steppable

theorem BlockSpec.mask_lt {constant : Bool} {dim i : Nat} (h : (mask constant dim).isFixed i = true) : i < dim := by
  unfold mask at h
  split at h
  · exact FixedMask.isFixed_all.1 h
  · simp at h

theorem BlockSpec.rotation_sound (constant : Bool) (pose : Pose α) : (rotation constant pose).Sound := by
  refine ⟨⟨rfl, fun _ hi => mask_lt hi⟩, ?_⟩
  cases constant
  · exact .inr (.inr rfl)
  · exact .inr (.inl rfl)

theorem BlockSpec.trans_sound (constant : Bool) (pose : Pose α) : (trans constant pose).Sound :=
  ⟨⟨rfl, fun _ hi => mask_lt hi⟩, .inl rfl⟩

theorem BlockSpec.point_sound (constant : Bool) (p : Vec3 α) : (point constant p).Sound :=
  ⟨⟨rfl, fun _ hi => mask_lt hi⟩, .inl rfl⟩

/-- The positions that a refinement holds constant are those of the groups that it leaves out. -/
theorem Refinement.isFixed_mask {refine : Refinement} {model : CameraModel} {i : Nat} :
    (refine.mask model).isFixed i = true ↔
      refine.focal = false ∧ i ∈ model.focalIndices ∨ refine.principal = false ∧ i ∈ model.principalIndices ∨
        refine.extra = false ∧ i ∈ model.extraIndices := by
  rw [mask, FixedMask.isFixed_ofList, List.mem_append, List.mem_append, or_assoc]
  cases refine.focal <;> cases refine.principal <;> cases refine.extra <;> simp

/-- Groups of parameters are of the model's parameters. -/
theorem CameraModel.lt_numParams {model : CameraModel} {i : Nat}
    (h : i ∈ model.focalIndices ∨ i ∈ model.principalIndices ∨ i ∈ model.extraIndices) : i < model.numParams := by
  cases model <;> simp [focalIndices, principalIndices, extraIndices, numParams] at h ⊢ <;> omega

theorem BlockSpec.camera_sound [Scalar α] (refine : Refinement) {c : Camera α} (hc : c.Valid) :
    (camera refine c).Sound := by
  have hlength : (camera refine c).value.length = c.model.numParams := hc.count
  refine ⟨⟨?_, fun i hi => ?_⟩, .inl rfl⟩
  · rw [hlength]
    exact decide_eq_true c.model.numParams_pos
  · rw [hlength]
    obtain ⟨-, h⟩ | ⟨-, h⟩ | ⟨-, h⟩ := Refinement.isFixed_mask.1 hi
    · exact CameraModel.lt_numParams (.inl h)
    · exact CameraModel.lt_numParams (.inr (.inl h))
    · exact CameraModel.lt_numParams (.inr (.inr h))

theorem BlockSpec.rotation_fills (constant : Bool) (pose : Pose α) (role : Role) :
    (rotation constant pose).Fills (.rotation role) := ⟨rfl, rfl⟩

theorem BlockSpec.trans_fills (constant : Bool) (pose : Pose α) (role : Role) :
    (trans constant pose).Fills (.vector role) := ⟨rfl, rfl⟩

theorem BlockSpec.point_fills (constant : Bool) (p : Vec3 α) (role : Role) :
    (point constant p).Fills (.vector role) := ⟨rfl, rfl⟩

theorem BlockSpec.camera_fills [Scalar α] (refine : Refinement) {c : Camera α} (hc : c.Valid) :
    (camera refine c).Fills (.intrinsics c.model) := ⟨hc.count, rfl⟩

/-- Keys that differ, with admissible contents that fit the measurements. -/
structure Consistent (spec : κ → BlockSpec α) (ks : List κ) (ms : List (Measurement κ α)) : Prop where
  nodup : ks.Nodup
  specs : ∀ k ∈ ks, (spec k).Sound
  reads : ∀ m ∈ ms, List.Forall₂ (fun k slot => k ∈ ks ∧ (spec k).Fills slot) m.reads m.factor.layout

/-- The names of the blocks that a residual block reads, with their initial values. -/
def Formulation.blocks (f : Formulation α) (r : ResidualBlock α) : List (Option (String × Option (List α))) :=
  r.params.map fun id => f.problem.params[id]?.map fun b => (b.name, f.initial.get? b.name)

namespace Measurement

variable [DecidableEq κ] [BlockKey κ] {spec : κ → BlockSpec α} {loss : RobustLoss α} {ks : List κ}
  {ms : List (Measurement κ α)}

theorem params_getElem? (i : Nat) :
    (assemble spec loss ks ms).problem.params[i]? = ks[i]?.map fun k => paramBlock spec k i := by
  rw [assemble, List.getElem?_map, List.getElem?_zipIdx, Option.map_map, Nat.zero_add]
  rfl

theorem params_map_name : (assemble spec loss ks ms).problem.params.map (·.name) = ks.map BlockKey.name := by
  have hname : (fun b : ParamBlock α => b.name) ∘ (fun x : κ × Nat => paramBlock spec x.1 x.2) =
      BlockKey.name ∘ Prod.fst := rfl
  rw [assemble, List.map_map, hname, ← List.map_map, List.zipIdx_map_fst]

/-- The id of a key is the position of its block. -/
theorem params_idxOf {k : κ} (hk : k ∈ ks) :
    (assemble spec loss ks ms).problem.params[ks.idxOf k]? = some (paramBlock spec k (ks.idxOf k)) := by
  rw [params_getElem?, List.getElem?_idxOf hk]
  rfl

/-- Every block is that of a key. -/
theorem mem_params {b : ParamBlock α} (hb : b ∈ (assemble spec loss ks ms).problem.params) :
    ∃ k ∈ ks, ∃ i, b = paramBlock spec k i := by
  obtain ⟨i, hi⟩ := List.mem_iff_getElem?.1 hb
  rw [params_getElem?, Option.map_eq_some_iff] at hi
  obtain ⟨k, hk, rfl⟩ := hi
  exact ⟨k, List.mem_of_getElem? hk, i, rfl⟩

variable [LawfulBlockKey κ]

/-- The initial value of a key's block. -/
theorem get?_initial (k : κ) :
    (assemble spec loss ks ms).initial.get? (BlockKey.name k) = if k ∈ ks then some (spec k).value else none := by
  change (ks.map fun j => (BlockKey.name j, (spec j).value)).lookup (BlockKey.name k) = _
  induction ks with
  | nil => rfl
  | cons j ks ih =>
    rw [List.map_cons, Assoc.lookup_cons_ite, ih]
    by_cases hj : k = j
    · subst hj; simp
    · have hname : BlockKey.name k ≠ BlockKey.name j := fun h => hj (LawfulBlockKey.name_injective h)
      simp [hname, hj]

omit [LawfulBlockKey κ] in
/-- Initial values are of the problem's blocks. -/
theorem isSome_initial_iff (name : String) :
    ((assemble spec loss ks ms).initial.get? name).isSome = true ↔
      name ∈ (assemble spec loss ks ms).problem.params.map (·.name) := by
  rw [params_map_name, Assoc.get?, List.lookup_isSome_iff]
  simp only [assemble, List.mem_map]
  constructor
  · rintro ⟨_, ⟨k, hk, rfl⟩, hname⟩; exact ⟨k, hk, (beq_iff_eq.1 hname).symm⟩
  · rintro ⟨k, hk, rfl⟩; exact ⟨_, ⟨k, hk, rfl⟩, beq_self_eq_true _⟩

omit [LawfulBlockKey κ] in
theorem get?_initial_of_notMem {name : String} (h : name ∉ ks.map BlockKey.name) :
    (assemble spec loss ks ms).initial.get? name = none := by
  rwa [← Option.not_isSome_iff_eq_none, isSome_initial_iff, params_map_name]

/-- Initial values have the lengths of their blocks. -/
theorem initial_fits : (assemble spec loss ks ms).initial.Fits (assemble spec loss ks ms).problem := by
  intro b hb
  obtain ⟨k, hk, i, rfl⟩ := mem_params hb
  exact ⟨(spec k).value, by rw [paramBlock, get?_initial, if_pos hk], rfl⟩

/-- A measurement's residual block reads the blocks of the measurement's keys. -/
theorem blocks_block {m : Measurement κ α} (hm : ∀ k ∈ m.reads, k ∈ ks) :
    (assemble spec loss ks ms).blocks (m.block loss ks) =
      m.reads.map fun k => some (BlockKey.name k, some (spec k).value) := by
  rw [Formulation.blocks, block, ResidualBlock.make, List.map_map]
  refine List.map_congr_left fun k hk => ?_
  rw [Function.comp_apply, params_idxOf (hm k hk), Option.map_some, paramBlock, get?_initial, if_pos (hm k hk)]

end Measurement

namespace Consistent

open Measurement

variable [DecidableEq κ] [BlockKey κ] {spec : κ → BlockSpec α} {loss : RobustLoss α} {ks : List κ}
  {ms : List (Measurement κ α)}

/-- A measurement within the keys has a residual block whose ids are those of its keys. -/
theorem slots (h : Consistent spec ks ms) {m : Measurement κ α} (hm : m ∈ ms) :
    List.Forall₂ (fun id slot => ∃ b, (assemble spec loss ks ms).problem.params[id]? = some b ∧ b.Fills slot)
      (m.block loss ks).params m.factor.layout := by
  rw [block, ResidualBlock.make, List.forall₂_map_left_iff]
  refine (h.reads m hm).imp fun k slot hk => ⟨_, params_idxOf hk.1, hk.2⟩

variable [LawfulBlockKey κ] [Scalar α]

theorem wellFormed (h : Consistent spec ks ms) : (assemble spec loss ks ms).problem.WellFormed where
  ids i b hb := by
    rw [params_getElem?, Option.map_eq_some_iff] at hb
    obtain ⟨k, -, rfl⟩ := hb
    rfl
  names := by
    rw [params_map_name]
    exact h.nodup.map LawfulBlockKey.name_injective
  params b hb := by
    obtain ⟨k, hk, i, rfl⟩ := mem_params hb
    have hspec := (h.specs k hk).wellFormed
    exact ⟨hspec.dim, hspec.fixed, by simp [paramBlock]⟩
  residuals r hr := by
    obtain ⟨m, hm, rfl⟩ := List.mem_map.1 hr
    exact ⟨rfl, h.slots hm⟩

/-- Drafting fails only for want of measurements. -/
theorem finish (h : Consistent spec ks ms) (again : κ → Bool) (asked : Nat) :
    (Draft.of spec loss again ks ms).finish asked =
      if ms = [] then .error (.noObservations (leastTrack asked)) else .ok (assemble spec loss ks ms) := by
  have hvalid : (assemble spec loss ks ms).problem.validate = .ok () := Problem.validate_eq_ok.2 h.wellFormed
  have hresiduals : (assemble spec loss ks ms).problem.residuals = [] ↔ ms = [] := by simp [assemble]
  rw [Draft.finish]
  by_cases hms : ms = []
  · rw [if_pos hms, Draft.of, require, if_neg (not_not.2 (hresiduals.2 hms)), error_bind]
  · rw [if_neg hms, Draft.of, require, if_pos (mt hresiduals.1 hms), ok_bind, hvalid]
    rfl

end Consistent

/-! ## Sound formulations -/

/-- A valid problem without idle blocks, with initial values of its blocks at which it has residuals, and which compiles
unless its loss is inadmissible. -/
structure Formulation.Sound [Scalar α] (f : Formulation α) (loss : RobustLoss α) : Prop where
  valid : f.problem.validate = .ok ()
  names : (f.problem.params.map (·.name)).Nodup
  read : ∀ id < f.problem.params.length, ∃ r ∈ f.problem.residuals, id ∈ r.params
  initial : ∀ name, (f.initial.get? name).isSome = true ↔ name ∈ f.problem.params.map (·.name)
  fits : ∀ b ∈ f.problem.params, ∃ x, f.initial.get? b.name = some x ∧ x.length = b.dim
  evaluates : ∃ residuals, f.problem.evaluate f.initial = .ok residuals
  compiles : (∃ compiled, f.problem.compile f.initial = .ok compiled) ↔ loss.Admissible

open Measurement in
/-- A consistent plan with measurements that together read every key gives a sound formulation. -/
theorem Consistent.sound [DecidableEq κ] [BlockKey κ] [LawfulBlockKey κ] [Scalar α] {spec : κ → BlockSpec α}
    {loss : RobustLoss α} {ks : List κ} {ms : List (Measurement κ α)} (h : Consistent spec ks ms) (hne : ms ≠ [])
    (hread : ∀ k ∈ ks, ∃ m ∈ ms, k ∈ m.reads) :
    (assemble spec loss ks ms).Sound loss where
  valid := Problem.validate_eq_ok.2 h.wellFormed
  names := h.wellFormed.names
  read id hid := by
    have hlength : (assemble spec loss ks ms).problem.params.length = ks.length := by simp [assemble]
    rw [hlength] at hid
    obtain ⟨m, hm, hk⟩ := hread ks[id] (List.getElem_mem hid)
    refine ⟨m.block loss ks, List.mem_map_of_mem hm, List.mem_map.2 ⟨ks[id], hk, ?_⟩⟩
    exact h.nodup.idxOf_getElem id hid
  initial := isSome_initial_iff
  fits := initial_fits
  evaluates := Problem.exists_evaluate h.wellFormed initial_fits
  compiles := by
    rw [Problem.exists_compile_iff]
    constructor
    · rintro ⟨-, -, -, hlosses⟩
      obtain ⟨m, hm⟩ := List.exists_mem_of_ne_nil ms hne
      exact hlosses (m.block loss ks) (List.mem_map_of_mem hm)
    · intro hloss
      refine ⟨h.wellFormed, initial_fits, fun b hb => ?_, fun r hr => ?_⟩
      · obtain ⟨k, hk, i, rfl⟩ := mem_params hb
        rcases (h.specs k hk).steppable with hflat | hfixed | hfree
        · exact .inl hflat
        · exact .inr (.inl hfixed)
        · exact .inr (.inr ⟨hfree, rfl⟩)
      · obtain ⟨m, -, rfl⟩ := List.mem_map.1 hr
        exact hloss

/-- Is an outcome a sound formulation if some observation passes a test, and the want of observations if none does? -/
def Formulation.SoundIfAny [Scalar α] (outcome : Except (RefineError α) (Formulation α)) (loss : RobustLoss α)
    (asked : Nat) (test : Observation α → Bool) (os : List (Observation α)) : Prop :=
  (∃ o ∈ os, test o = true) ∧ (∃ f, outcome = .ok f ∧ f.Sound loss) ∨
    (∀ o ∈ os, test o = false) ∧ outcome = .error (.noObservations (leastTrack asked))

theorem Formulation.SoundIfAny.exists_sound [Scalar α] {outcome : Except (RefineError α) (Formulation α)}
    {loss : RobustLoss α} {asked : Nat} {test : Observation α → Bool} {os : List (Observation α)}
    (h : Formulation.SoundIfAny outcome loss asked test os) (hany : ∃ o ∈ os, test o = true) :
    ∃ f, outcome = .ok f ∧ f.Sound loss := by
  rcases h with ⟨-, hsound⟩ | ⟨hnone, -⟩
  · exact hsound
  · obtain ⟨o, ho, hpass⟩ := hany
    exact absurd (hnone o ho) (by simp [hpass])

open Measurement in
/-- Where measurements are those of the observations that pass a test, a consistent plan has a sound formulation if any
observation passes it. -/
theorem Consistent.soundIfAny [DecidableEq κ] [BlockKey κ] [LawfulBlockKey κ] [Scalar α] {spec : κ → BlockSpec α}
    {loss : RobustLoss α} {ks : List κ} {ms : List (Measurement κ α)} (h : Consistent spec ks ms)
    (hread : ∀ k ∈ ks, ∃ m ∈ ms, k ∈ m.reads) {asked : Nat} {test : Observation α → Bool} {os : List (Observation α)}
    (hms : ms.length = (os.filter test).length) :
    Formulation.SoundIfAny
      (if ms = [] then .error (.noObservations (leastTrack asked)) else .ok (assemble spec loss ks ms)) loss asked
      test os := by
  have hnil : ms = [] ↔ ∀ o ∈ os, test o = false := by
    rw [← List.length_eq_zero_iff, hms, List.length_eq_zero_iff, List.filter_eq_nil_iff]
    simp only [Bool.not_eq_true]
  by_cases hempty : ms = []
  · exact .inr ⟨hnil.1 hempty, if_pos hempty⟩
  · have hany : ∃ o ∈ os, test o = true := by
      by_contra hnone
      exact hempty (hnil.2 fun o ho => Bool.eq_false_iff.2 fun hpass => hnone ⟨o, ho, hpass⟩)
    exact .inl ⟨hany, _, if_neg hempty, h.sound hempty hread⟩

end MultiView
