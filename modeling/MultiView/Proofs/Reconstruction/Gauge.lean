import Mathlib
import MultiView.Proofs.Bundle.Planned
import MultiView.Proofs.Geometry.Similarity
import MultiView.Proofs.Problem.Obstacles
import MultiView.Proofs.Reconstruction.Refinements
import MultiView.Proofs.Rig.Planned

/-!
# Residuals do not change with the world's frame

A similarity moves the points of values of blocks and carries their poses along (`Similarity.carryBundle`,
`Similarity.carryRigs`). In exact arithmetic the residual of a factor at the moved blocks is the residual at the blocks
(`Factor.residual_carry`, `Factor.residual_carryRig`). So every formulation of any dataset has the same residuals at
both (`evaluate_carry`), unless a pose is held constant, which then stays where it is in the moved world.
-/

namespace MultiView

/-! ## Factors -/

namespace Factor

variable {g : Similarity} {lens : Lens ℝ} {model : CameraModel} {uv : Vec2 ℝ} {q r : Quat ℝ} {t u x : Vec3 ℝ}

theorem reprojectionError_scale {s : ℝ} (hs : s ≠ 0) (p : Vec3 ℝ) :
    reprojectionError lens (p.scale s) uv = reprojectionError lens p uv := by
  rw [reprojectionError, Vec3.perspective_scale hs, ← reprojectionError]

theorem residual_carry (hq : q.norm = 1) (params : List ℝ) :
    (reprojection model uv).residual
        [(g.carryRot q).toList, (g.carry ⟨q, t⟩).trans.toList, (g.apply x).toList, params] =
      (reprojection model uv).residual [q.toList, t.toList, x.toList, params] := by
  change (reprojectionError (model.lens params) ((g.carry ⟨q, t⟩).apply (g.apply x)) uv).toList =
    (reprojectionError (model.lens params) ((⟨q, t⟩ : Pose ℝ).apply x) uv).toList
  rw [Similarity.carry_apply hq, reprojectionError_scale g.scale_ne_zero]

theorem residual_carryRig (hq : q.norm = 1) (hr : r.norm = 1) (params : List ℝ) :
    (rig model uv).residual
        [(g.carryRot q).toList, (g.carry ⟨q, t⟩).trans.toList, r.toList, (u.scale g.scale).toList,
          (g.apply x).toList, params] =
      (rig model uv).residual [q.toList, t.toList, r.toList, u.toList, x.toList, params] := by
  change (reprojectionError (model.lens params) (((g.stretch ⟨r, u⟩).comp (g.carry ⟨q, t⟩)).apply (g.apply x))
      uv).toList = (reprojectionError (model.lens params) (((⟨r, u⟩ : Pose ℝ).comp ⟨q, t⟩).apply x) uv).toList
  rw [Similarity.comp_carry_apply hr hq, reprojectionError_scale g.scale_ne_zero]

end Factor

/-! ## Values -/

section Values

variable {κ α : Type} [BlockKey κ]

open Classical in
/-- The change of the key that has a name, no change if there is none. -/
noncomputable def changeAt (f : κ → List α → List α) (name : String) (b : List α) : List α :=
  if h : ∃ k : κ, BlockKey.name k = name then f h.choose b else b

theorem changeAt_name [LawfulBlockKey κ] (f : κ → List α → List α) (k : κ) (b : List α) :
    changeAt f (BlockKey.name k) b = f k b := by
  have h : ∃ j : κ, BlockKey.name j = BlockKey.name k := ⟨k, rfl⟩
  rw [changeAt, dif_pos h, LawfulBlockKey.name_injective h.choose_spec]

/-- Values with the blocks of keys changed. -/
noncomputable def Values.mapBlocks (f : κ → List α → List α) (v : Values α) : Values α :=
  ⟨v.entries.map fun e => (e.1, changeAt f e.1 e.2)⟩

theorem Values.block?_mapBlocks [LawfulBlockKey κ] (f : κ → List α → List α) (v : Values α) (k : κ) :
    (v.mapBlocks f).block? k = (v.block? k).map (f k) := by
  rw [block?, block?, Assoc.get?, mapBlocks, Assoc.lookup_map, Assoc.get?]
  exact congrArg (fun change => (v.entries.lookup (BlockKey.name k)).map change) (funext (changeAt_name f k))

/-- The changed blocks of keys. -/
theorem Values.forall₂_mapBlocks [LawfulBlockKey κ] (f : κ → List α → List α) {v : Values α} {ks : List κ}
    {blocks : List (List α)} (h : List.Forall₂ (fun k b => v.block? k = some b) ks blocks) :
    List.Forall₂ (fun k b => (v.mapBlocks f).block? k = some b) ks (List.zipWith f ks blocks) := by
  induction h with
  | nil => exact .nil
  | cons hb _ ih => exact .cons (by rw [block?_mapBlocks, hb, Option.map_some]) ih

/-- Lists that are related to one list are related to each other. -/
theorem forall₂_of_common {σ τ υ : Type} {R : σ → τ → Prop} {S : σ → υ → Prop} {T : τ → υ → Prop} {xs : List σ}
    {ys : List τ} {zs : List υ} (hR : List.Forall₂ R xs ys) (hS : List.Forall₂ S xs zs)
    (h : ∀ x y z, R x y → S x z → T y z) : List.Forall₂ T ys zs := by
  induction hR generalizing zs with
  | nil => rw [List.forall₂_nil_left_iff.1 hS]; exact .nil
  | cons hxy _ ih =>
    obtain ⟨z, zs, hxz, hzs, rfl⟩ := List.forall₂_cons_left_iff.1 hS
    exact .cons (h _ _ _ hxy hxz) (ih hzs)

variable [Scalar α] {p : Problem α} {v w : Values α}

/-- The residual of a measurement's block, by the values of its keys' blocks. -/
theorem ResidualBlock.IsOf.yields_iff {r : ResidualBlock α} {m : Measurement κ α} (h : r.IsOf p m) {x : List α} :
    r.Yields p v x ↔ ∃ blocks, List.Forall₂ (fun k b => v.block? k = some b) m.reads blocks ∧
      m.factor.blockSizes = blocks.map List.length ∧ m.factor.residual blocks = x := by
  rw [ResidualBlock.Yields, h.factor]
  refine exists_congr fun blocks => and_congr_left fun _ => ⟨fun hblocks => ?_, fun hblocks => ?_⟩
  · refine forall₂_of_common h.reads hblocks fun id k b hk hb => ?_
    obtain ⟨pb, hpb, hname⟩ := hk
    obtain ⟨pb', hpb', hvalue⟩ := hb
    obtain rfl := Option.some.inj (hpb.symm.trans hpb')
    rwa [Values.block?, ← hname]
  · refine forall₂_of_common h.reads.flip hblocks fun k id b hk hb => ?_
    obtain ⟨pb, hpb, hname⟩ := hk
    exact ⟨pb, hpb, hname ▸ hb⟩

/-- Blocks of keys may be changed where the factors of their lengths do not see it. -/
theorem ResidualBlock.IsOf.yields_mapBlocks [LawfulBlockKey κ] {r : ResidualBlock α} {m : Measurement κ α}
    (h : r.IsOf p m) (f : κ → List α → List α)
    (hf : ∀ blocks, List.Forall₂ (fun k b => v.block? k = some b) m.reads blocks →
      m.factor.blockSizes = blocks.map List.length →
      (List.zipWith f m.reads blocks).map List.length = blocks.map List.length ∧
        m.factor.residual (List.zipWith f m.reads blocks) = m.factor.residual blocks)
    {x : List α} (hx : r.Yields p v x) : r.Yields p (v.mapBlocks f) x := by
  obtain ⟨blocks, hblocks, hsizes, rfl⟩ := h.yields_iff.1 hx
  obtain ⟨hlengths, hresidual⟩ := hf blocks hblocks hsizes
  exact h.yields_iff.2 ⟨_, Values.forall₂_mapBlocks f hblocks, hsizes.trans hlengths.symm, hresidual⟩

/-- Where each residual is what it was, the residuals are. -/
theorem Problem.evaluate_eq_of_yields {rs : List (List α)} (h : p.evaluate v = .ok rs)
    (hyields : ∀ r ∈ p.residuals, ∀ x, r.Yields p v x → r.Yields p w x) : p.evaluate w = .ok rs := by
  rw [evaluate_eq_ok] at h ⊢
  refine ((List.forall₂_and_left _ _).2 ⟨fun r hr => hr, h⟩).imp ?_
  rintro r x ⟨hr, hx⟩
  exact hyields r hr x hx

end Values

/-! ## Moved values -/

/-- The value of a block in the moved world. -/
noncomputable def BundleKey.carry (g : Similarity) (v : Values ℝ) : BundleKey → List ℝ → List ℝ
  | .camera _, b => b
  | .rotation _, b => (g.carryRot (.ofList b)).toList
  | .trans i, b => (g.carry ⟨.ofList ((v.block? (rotation i)).getD []), .ofList b⟩).trans.toList
  | .point _, b => (g.apply (.ofList b)).toList

/-- The value of a block in the moved world. -/
noncomputable def RigKey.carry (g : Similarity) (v : Values ℝ) : RigKey → List ℝ → List ℝ
  | .camera _, b | .relRotation _ _, b => b
  | .rigRotation _, b => (g.carryRot (.ofList b)).toList
  | .rigTrans i, b => (g.carry ⟨.ofList ((v.block? (rigRotation i)).getD []), .ofList b⟩).trans.toList
  | .relTrans _ _, b => ((Vec3.ofList b).scale g.scale).toList
  | .point _, b => (g.apply (.ofList b)).toList

noncomputable def Similarity.carryBundle (g : Similarity) (v : Values ℝ) : Values ℝ := v.mapBlocks (BundleKey.carry g v)

noncomputable def Similarity.carryRigs (g : Similarity) (v : Values ℝ) : Values ℝ := v.mapBlocks (RigKey.carry g v)

/-- The rotations that a measurement reads. -/
theorem Values.UnitRotations.reads {κ : Type} [BlockKey κ] {v : Values ℝ} {p : Problem ℝ} (hv : v.UnitRotations p)
    {r : ResidualBlock ℝ} (hr : r.WellFormed p.params) {m : Measurement κ ℝ} (h : r.IsOf p m) :
    List.Forall₂ (fun slot k => slot.manifold = .so3 → ∀ x, v.block? k = some x → (Quat.ofList x).norm = 1)
      m.factor.layout m.reads := by
  refine h.factor ▸ forall₂_of_common hr.slots h.reads fun id slot k hslot hk hso3 x hx => ?_
  obtain ⟨b, hb, -, hmanifold⟩ := hslot
  obtain ⟨b', hb', hname⟩ := hk
  obtain rfl := Option.some.inj (hb.symm.trans hb')
  exact hv b (List.mem_of_getElem? hb) (hmanifold.trans hso3) x (hname ▸ hx)

variable {g : Similarity} {v : Values ℝ} {p : Problem ℝ} {r : ResidualBlock ℝ} {x : List ℝ}

theorem BundleKey.yields_carry (hv : v.UnitRotations p) (hr : r.WellFormed p.params) {model : CameraModel}
    {uv : Vec2 ℝ} {i j c : Nat} (h : r.IsOf p ⟨.reprojection model uv, [rotation i, trans i, point j, camera c]⟩)
    (hx : r.Yields p v x) : r.Yields p (g.carryBundle v) x := by
  obtain ⟨hrotation, -⟩ := List.forall₂_cons.1 (hv.reads hr h)
  refine h.yields_mapBlocks (BundleKey.carry g v) (fun blocks hblocks hsizes => ?_) hx
  match blocks, hblocks with
  | [q, t, y, params], .cons hq (.cons _ (.cons _ (.cons _ .nil))) =>
    simp only [Factor.blockSizes, List.map_cons, List.map_nil, List.cons.injEq, and_true] at hsizes
    obtain ⟨hqlength, htlength, hylength, -⟩ := hsizes
    obtain ⟨q, rfl⟩ := Quat.exists_toList hqlength.symm
    obtain ⟨t, rfl⟩ := Vec3.exists_toList htlength.symm
    obtain ⟨y, rfl⟩ := Vec3.exists_toList hylength.symm
    have hunit : q.norm = 1 := hrotation rfl q.toList hq
    simp only [List.zipWith_cons_cons, List.zipWith_nil_left, carry, hq]
    exact ⟨rfl, Factor.residual_carry hunit params⟩

theorem RigKey.yields_carry (hv : v.UnitRotations p) (hr : r.WellFormed p.params) {model : CameraModel}
    {uv : Vec2 ℝ} {i a m j c : Nat} (h : r.IsOf p
      ⟨.rig model uv, [rigRotation i, rigTrans i, relRotation a m, relTrans a m, point j, camera c]⟩)
    (hx : r.Yields p v x) : r.Yields p (g.carryRigs v) x := by
  obtain ⟨hrotation, hreads⟩ := List.forall₂_cons.1 (hv.reads hr h)
  obtain ⟨hrelative, -⟩ := List.forall₂_cons.1 (List.forall₂_cons.1 hreads).2
  refine h.yields_mapBlocks (RigKey.carry g v) (fun blocks hblocks hsizes => ?_) hx
  match blocks, hblocks with
  | [q, t, q', t', y, params], .cons hq (.cons _ (.cons hq' (.cons _ (.cons _ (.cons _ .nil))))) =>
    simp only [Factor.blockSizes, List.map_cons, List.map_nil, List.cons.injEq, and_true] at hsizes
    obtain ⟨hqlength, htlength, hqlength', htlength', hylength, -⟩ := hsizes
    obtain ⟨q, rfl⟩ := Quat.exists_toList hqlength.symm
    obtain ⟨t, rfl⟩ := Vec3.exists_toList htlength.symm
    obtain ⟨q', rfl⟩ := Quat.exists_toList hqlength'.symm
    obtain ⟨t', rfl⟩ := Vec3.exists_toList htlength'.symm
    obtain ⟨y, rfl⟩ := Vec3.exists_toList hylength.symm
    have hunit : q.norm = 1 := hrotation rfl q.toList hq
    have hunit' : q'.norm = 1 := hrelative rfl q'.toList hq'
    simp only [List.zipWith_cons_cons, List.zipWith_nil_left, carry, hq]
    exact ⟨rfl, Factor.residual_carryRig hunit hunit' params⟩

/-! ## Initial values -/

/-- Initial values fit, and are unit quaternions where the contents of rotation blocks are. -/
theorem Measurement.initial_unitRotations {κ : Type} [DecidableEq κ] [BlockKey κ] [LawfulBlockKey κ]
    {spec : κ → BlockSpec ℝ} {loss : RobustLoss ℝ} {ks : List κ} {ms : List (Measurement κ ℝ)}
    (h : ∀ k ∈ ks, (spec k).manifold = .so3 → (Quat.ofList (spec k).value).norm = 1) :
    (assemble spec loss ks ms).initial.UnitRotations (assemble spec loss ks ms).problem := by
  intro b hb hso3 x hx
  obtain ⟨k, hk, i, rfl⟩ := mem_params hb
  rw [paramBlock, get?_initial, if_pos hk] at hx
  exact Option.some.inj hx ▸ h k hk hso3

/-- Valid datasets with unit quaternions start from values whose residuals do not change with the world's frame. -/
theorem BundleDataset.initial_unitRotations {d : BundleDataset ℝ} (hd : d.Valid)
    (hunit : ∀ image ∈ d.images, image.pose.rot.norm = 1) {options : BundleOptions ℝ} {f : Formulation ℝ}
    (hf : d.formulate options = .ok f) : f.initial.Fits f.problem ∧ f.initial.UnitRotations f.problem := by
  obtain ⟨-, rfl⟩ := (formulate_eq_ok hd).1 hf
  exact ⟨Measurement.initial_fits, Measurement.initial_unitRotations fun k hk =>
    norm_value hunit hd (mem_keys_iff_uses.1 hk)⟩

theorem RigDataset.initial_unitRotations {d : RigDataset ℝ} (hd : d.Valid) (hunit : d.UnitRotations)
    {options : RigOptions ℝ} {f : Formulation ℝ} (hf : d.formulate options = .ok f) :
    f.initial.Fits f.problem ∧ f.initial.UnitRotations f.problem := by
  obtain ⟨-, rfl⟩ := (formulate_eq_ok hd).1 hf
  exact ⟨Measurement.initial_fits, Measurement.initial_unitRotations fun k hk hso3 =>
    hunit.norm_value hd ((mem_keys_iff_uses hd).1 hk) hso3⟩

/-! ## Formulations -/

/-- Values of the right lengths with unit rotations have residuals in any formulation, and the moved values have the
same. A pose that is held constant is not in the values, so there has to be none. -/
theorem evaluate_carry (g : Similarity) (v : Values ℝ) :
    (∀ (d : BundleDataset ℝ) (options : BundleOptions ℝ) (f : Formulation ℝ), d.formulate options = .ok f →
      (∀ i ∈ options.constantPoses, d.images.length ≤ i) → v.Fits f.problem → v.UnitRotations f.problem →
      ∃ rs, f.problem.evaluate v = .ok rs ∧ f.problem.evaluate (g.carryBundle v) = .ok rs) ∧
    ∀ (d : RigDataset ℝ) (options : RigOptions ℝ) (f : Formulation ℝ), d.formulate options = .ok f →
      v.Fits f.problem → v.UnitRotations f.problem →
      ∃ rs, f.problem.evaluate v = .ok rs ∧ f.problem.evaluate (g.carryRigs v) = .ok rs := by
  constructor
  · intro d options f hf hfree hfits hunit
    obtain ⟨hwf, hplanned⟩ := BundleDataset.planned_of_formulate hf
    obtain ⟨rs, hrs⟩ := Problem.exists_evaluate hwf hfits
    refine ⟨rs, hrs, Problem.evaluate_eq_of_yields hrs fun r hr x hx => ?_⟩
    obtain ⟨_, ⟨index, image, o, hindex, rfl⟩, hm⟩ := hplanned r hr
    have hlt : index < d.images.length := (List.getElem?_eq_some_iff.1 hindex).1
    have hvaries : ¬options.constantPoses.contains index = true := fun h =>
      absurd (hfree index (List.contains_iff_mem.1 h)) (Nat.not_le.2 hlt)
    rw [BundleDataset.measurement_of_variable hvaries] at hm
    exact BundleKey.yields_carry hunit (hwf.residuals r hr) hm hx
  · intro d options f hf hfits hunit
    obtain ⟨hwf, hplanned⟩ := RigDataset.planned_of_formulate hf
    obtain ⟨rs, hrs⟩ := Problem.exists_evaluate hwf hfits
    refine ⟨rs, hrs, Problem.evaluate_eq_of_yields hrs fun r hr x hx => ?_⟩
    obtain ⟨_, ⟨index, s, image, o, -, rfl⟩, hm⟩ := hplanned r hr
    exact RigKey.yields_carry hunit (hwf.residuals r hr) hm hx

/-- A similarity that turns the world around and mirrors it. -/
def Similarity.mirror : Similarity where
  scale := -2
  rot := ⟨0, 0, 1, 0⟩
  trans := ⟨1, 2, 3⟩
  scale_ne_zero := by norm_num
  norm_rot := Quat.norm_eq_one.2 (by norm_num [Quat.normSq])

/-- With a free pose, and with a rig pose that is held constant. -/
theorem evaluate_carry_mirror :
    (∃ f rs, (BundleDataset.offAxis 2).formulate ⟨.none, .default, [], [0], 1⟩ = .ok f ∧
      f.problem.evaluate f.initial = .ok rs ∧
      f.problem.evaluate (Similarity.mirror.carryBundle f.initial) = .ok rs) ∧
    ∃ f rs, (RigDataset.offAxis 2).formulate .held = .ok f ∧ f.problem.evaluate f.initial = .ok rs ∧
      f.problem.evaluate (Similarity.mirror.carryRigs f.initial) = .ok rs := by
  constructor
  · obtain ⟨f, hf⟩ : ∃ f, (BundleDataset.offAxis 2).formulate ⟨.none, .default, [], [0], 1⟩ = .ok f :=
      ⟨_, (BundleDataset.formulate_eq_ok (BundleDataset.valid_offAxis two_pos)).2 ⟨List.cons_ne_nil _ _, rfl⟩⟩
    obtain ⟨hfits, hunit⟩ :=
      BundleDataset.initial_unitRotations (BundleDataset.valid_offAxis two_pos) BundleDataset.norm_offAxis hf
    obtain ⟨rs, hrs, hcarried⟩ := (evaluate_carry .mirror f.initial).1 _ _ f hf (by simp) hfits hunit
    exact ⟨f, rs, hf, hrs, hcarried⟩
  · obtain ⟨f, hf⟩ : ∃ f, (RigDataset.offAxis 2).formulate .held = .ok f :=
      ⟨_, (RigDataset.formulate_eq_ok (RigDataset.valid_offAxis two_pos)).2 ⟨List.cons_ne_nil _ _, rfl⟩⟩
    obtain ⟨hfits, hunit⟩ :=
      RigDataset.initial_unitRotations (RigDataset.valid_offAxis two_pos) RigDataset.unitRotations_offAxis hf
    obtain ⟨rs, hrs, hcarried⟩ := (evaluate_carry .mirror f.initial).2 _ _ f hf hfits hunit
    exact ⟨f, rs, hf, hrs, hcarried⟩

end MultiView
