import Mathlib
import MultiView.Proofs.Problem.Cost
import MultiView.Proofs.Reconstruction.Refinements
import MultiView.Proofs.Reconstruction.Residuals

/-!
# Asking for longer tracks

Residual blocks are compared by the names of the blocks that they read, because ids change (`NamedResidual`). A plan
that has some of the measurements of another one, and blocks for these only, has a formulation that is the other one
thinned (`Consistent.thinned`), of at most its cost (`Formulation.Thinned.cost_le`). A larger least track length leaves
out the measurements of the points whose tracks became too short, and nothing else (`formulate_thinned`).
-/

namespace MultiView

variable {κ α : Type}

/-! ## Residual blocks by name -/

/-- A residual block that names the blocks which it reads, instead of giving their ids. -/
structure NamedResidual (α : Type) where
  factor : Factor α
  loss : RobustLoss α
  names : List (Option String)

def Problem.named (p : Problem α) (r : ResidualBlock α) : NamedResidual α :=
  ⟨r.factor, r.loss, r.params.map fun id => p.params[id]?.map (·.name)⟩

def Problem.namedResiduals (p : Problem α) : List (NamedResidual α) := p.residuals.map p.named

/-- Is a point read whose track is long enough for one least length, but not for the other one? -/
def NamedResidual.readsShort (tracks : List Nat) (asked more : Nat) (x : NamedResidual α) : Bool :=
  tracks.zipIdx.any fun (n, i) => leastTrack asked ≤ n ∧ n < leastTrack more ∧ some s!"point/{i}" ∈ x.names

def Measurement.named [BlockKey κ] (loss : RobustLoss α) (m : Measurement κ α) : NamedResidual α :=
  ⟨m.factor, loss, m.reads.map fun k => some (BlockKey.name k)⟩

open Measurement

theorem Consistent.namedResiduals [DecidableEq κ] [BlockKey κ] {spec : κ → BlockSpec α} {loss : RobustLoss α}
    {ks : List κ} {ms : List (Measurement κ α)} (h : Consistent spec ks ms) :
    (assemble spec loss ks ms).problem.namedResiduals = ms.map (named loss) := by
  change (ms.map (block loss ks)).map _ = _
  rw [List.map_map]
  refine List.map_congr_left fun m hm => ?_
  obtain ⟨hmem, -⟩ := (List.forall₂_and_left _ _).1 (h.reads m hm)
  rw [Function.comp_apply, Problem.named, block, ResidualBlock.make, named, List.map_map]
  congr 1
  refine List.map_congr_left fun k hk => ?_
  rw [Function.comp_apply, params_idxOf (hmem k hk)]
  rfl

/-! ## Thinned formulations -/

/-- The residual blocks of a formulation that pass a test, with their residuals at the initial values, and blocks with
the contents that they had. -/
structure Formulation.Thinned [Scalar α] (keep : NamedResidual α → Bool) (f g : Formulation α) : Prop where
  kept : g.problem.namedResiduals = f.problem.namedResiduals.filter keep
  blocks : ∀ b ∈ g.problem.params, (∃ id, { b with id := id } ∈ f.problem.params) ∧
    ∃ x, f.initial.get? b.name = some x ∧ g.initial.get? b.name = some x
  residuals : ∃ rs rs', f.problem.evaluate f.initial = .ok rs ∧ g.problem.evaluate g.initial = .ok rs' ∧
    g.problem.namedResiduals.zip rs' = (f.problem.namedResiduals.zip rs).filter fun x => keep x.1

theorem Problem.map_snd_zip_namedResiduals [Scalar α] {p : Problem α} {v : Values α} {rs : List (List α)}
    (h : p.evaluate v = .ok rs) : (p.namedResiduals.zip rs).map Prod.snd = rs := by
  refine List.map_snd_zip (le_of_eq ?_)
  rw [namedResiduals, List.length_map, (Problem.evaluate_eq_ok.1 h).length_eq]

/-- In exact arithmetic, what is left out does not raise the cost. -/
theorem Formulation.Thinned.cost_le {keep : NamedResidual ℝ → Bool} {f g : Formulation ℝ} (h : f.Thinned keep g) :
    ∃ c c', f.problem.cost f.initial = .ok c ∧ g.problem.cost g.initial = .ok c' ∧ c' ≤ c := by
  obtain ⟨rs, rs', hrs, hrs', hzip⟩ := h.residuals
  refine ⟨_, _, Problem.cost_eq_ok.2 ⟨rs, hrs, rfl⟩, Problem.cost_eq_ok.2 ⟨rs', hrs', rfl⟩, totalCost_sublist_le ?_⟩
  rw [← Problem.map_snd_zip_namedResiduals hrs, ← Problem.map_snd_zip_namedResiduals hrs', hzip]
  exact List.filter_sublist.map Prod.snd

section Plans

variable [DecidableEq κ] [BlockKey κ] [LawfulBlockKey κ] {spec : κ → BlockSpec α} {loss : RobustLoss α}
  {ks ks' : List κ} {ms ms' : List (Measurement κ α)} {keep : NamedResidual α → Bool}

theorem Consistent.thinned [Scalar α] (h : Consistent spec ks ms) (h' : Consistent spec ks' ms') (hks : ks' ⊆ ks)
    (hms : ms' = ms.filter fun m => keep (m.named loss)) :
    (assemble spec loss ks ms).Thinned keep (assemble spec loss ks' ms') where
  kept := by rw [h.namedResiduals, h'.namedResiduals, hms, List.filter_map]; rfl
  blocks b hb := by
    obtain ⟨k, hk, i, rfl⟩ := mem_params hb
    refine ⟨⟨ks.idxOf k, List.mem_of_getElem? (params_idxOf (hks hk))⟩, (spec k).value, ?_, ?_⟩
    · rw [paramBlock, get?_initial, if_pos (hks hk)]
    · rw [paramBlock, get?_initial, if_pos hk]
  residuals := by
    refine ⟨_, _, h.evaluate_initial, h'.evaluate_initial, ?_⟩
    rw [h.namedResiduals, h'.namedResiduals, hms, List.zip_map', List.zip_map', List.filter_map]
    rfl

/-- What is thinned to something was something. -/
theorem Consistent.exists_thinned [Scalar α] (h : Consistent spec ks ms) (h' : Consistent spec ks' ms') (hks : ks' ⊆ ks)
    (hms : ms' = ms.filter fun m => keep (m.named loss)) {e e' : RefineError α} {g : Formulation α}
    (hg : (if ms' = [] then .error e' else .ok (assemble spec loss ks' ms')) = Except.ok g) :
    ∃ f, (if ms = [] then .error e else .ok (assemble spec loss ks ms)) = Except.ok f ∧ f.Thinned keep g := by
  split at hg
  · cases hg
  · next hne =>
    obtain rfl := Except.ok.inj hg
    have hne' : ms ≠ [] := fun hnil => hne (by rw [hms, hnil, List.filter_nil])
    exact ⟨_, if_neg hne', h.thinned h' hks hms⟩

end Plans

/-! ## Points with short tracks -/

section Tracks

variable {tracks : List Nat} {asked more : Nat}

theorem usable_of_le (h : asked ≤ more) {o : Observation α} (ho : usable more tracks o = true) :
    usable asked tracks o = true := by
  rw [usable, decide_eq_true_eq] at ho ⊢
  exact (max_le_max_right 1 h).trans ho

theorem filter_usable_of_le (h : asked ≤ more) (os : List (Observation α)) :
    (os.filter (usable asked tracks)).filter (usable more tracks) = os.filter (usable more tracks) := by
  refine (List.filter_filter ..).trans (List.filter_congr fun o _ => ?_)
  rw [Bool.and_eq_left_iff_imp]
  exact usable_of_le h

/-- What one point reads is left out if its track is long enough for the smaller of two least lengths only. -/
theorem Measurement.readsShort_named [BlockKey κ] [LawfulBlockKey κ] {point : Nat → κ}
    (hname : ∀ i, BlockKey.name (point i) = s!"point/{i}") {m : Measurement κ α} {o : Observation α}
    (hreads : ∀ i, point i ∈ m.reads ↔ i = o.point) (loss : RobustLoss α) :
    (m.named loss).readsShort tracks asked more = (usable asked tracks o && !usable more tracks o) := by
  have hmem : ∀ i, some s!"point/{i}" ∈ (m.named loss).names ↔ i = o.point := fun i => by
    rw [← hreads, ← hname, named, List.mem_map]
    constructor
    · rintro ⟨k, hk, hkname⟩
      exact LawfulBlockKey.name_injective (Option.some.inj hkname) ▸ hk
    · exact fun hk => ⟨_, hk, rfl⟩
  rw [Bool.eq_iff_iff, NamedResidual.readsShort, List.any_eq_true, Bool.and_eq_true, Bool.not_eq_true', usable, usable,
    decide_eq_true_eq, decide_eq_false_iff_not, not_le, List.getD_eq_getElem?_getD]
  constructor
  · rintro ⟨⟨n, i⟩, hn, htest⟩
    obtain ⟨hlong, hshort, hi⟩ := of_decide_eq_true htest
    obtain rfl := (hmem i).1 hi
    rw [List.mk_mem_zipIdx_iff_getElem?.1 hn]
    exact ⟨hlong, hshort⟩
  · rintro ⟨hlong, hshort⟩
    cases hn : tracks[o.point]? with
    | none =>
      -- a track that is not there would have to be of positive length
      rw [hn] at hlong
      exact absurd ((le_max_right asked 1).trans hlong) (by simp)
    | some n =>
      rw [hn] at hlong hshort
      exact ⟨(n, o.point), List.mk_mem_zipIdx_iff_getElem?.2 hn, decide_eq_true ⟨hlong, hshort, (hmem _).2 rfl⟩⟩

/-- What is left of measurements of one point each when longer tracks are asked for. -/
theorem Measurement.map_filter_usable [BlockKey κ] [LawfulBlockKey κ] {σ : Type} {observed : σ → Observation α}
    {measure : σ → Measurement κ α} {point : Nat → κ} (hname : ∀ i, BlockKey.name (point i) = s!"point/{i}")
    (hreads : ∀ x i, point i ∈ (measure x).reads ↔ i = (observed x).point) (loss : RobustLoss α) {xs : List σ}
    (hxs : ∀ x ∈ xs, usable asked tracks (observed x) = true) :
    (xs.filter fun x => usable more tracks (observed x)).map measure =
      (xs.map measure).filter fun m => !(m.named loss).readsShort tracks asked more := by
  rw [List.filter_map]
  refine congrArg (List.map _) (List.filter_congr fun x hx => ?_)
  rw [Function.comp_apply, readsShort_named hname (hreads x), hxs x hx, Bool.true_and, Bool.not_not]

end Tracks

/-! ## Datasets -/

namespace BundleDataset

variable {d : BundleDataset α} {options : BundleOptions α} {asked more : Nat}

theorem sightings_of_le (h : asked ≤ more) :
    d.sightings more = (d.sightings asked).filter fun x => usable more d.trackLengths x.2.2 := by
  simp only [sightings, List.filter_flatMap, List.filter_map, Function.comp_def, filter_usable_of_le h]

theorem point_mem_reads {index : Nat} {image : Image α} {o : Observation α} (i : Nat) :
    .point i ∈ (d.measurement options index image o).reads ↔ i = o.point := by
  simp only [mem_reads, mem_poseKeys, reduceCtorEq, or_self, and_false, false_or, BundleKey.point.injEq]

theorem measurements_of_le (h : options.minTrackLength ≤ more) :
    d.measurements { options with minTrackLength := more } = (d.measurements options).filter fun m =>
      !(m.named options.loss).readsShort d.trackLengths options.minTrackLength more := by
  rw [measurements_eq, measurements_eq, sightings_of_le h]
  exact map_filter_usable (fun _ => rfl) (fun _ => point_mem_reads) options.loss fun x hx =>
    (List.mem_filter.1 (mem_sightings.1 hx).2).2

theorem keys_of_le (h : options.minTrackLength ≤ more) :
    d.keys { options with minTrackLength := more } ⊆ d.keys options := by
  intro k hk
  obtain ⟨m, hm, hread⟩ := mem_keys.1 hk
  rw [measurements_of_le h] at hm
  exact mem_keys.2 ⟨m, List.mem_of_mem_filter hm, hread⟩

theorem exists_thinned [Scalar α] (hd : d.Valid) (h : options.minTrackLength ≤ more) {g : Formulation α}
    (hg : d.formulate { options with minTrackLength := more } = .ok g) :
    ∃ f, d.formulate options = .ok f ∧ f.Thinned
      (fun x => !x.readsShort d.trackLengths options.minTrackLength more) g := by
  have hc : Consistent (d.blockSpec options) _ _ := consistent hd
  have hc' : Consistent (d.blockSpec { options with minTrackLength := more }) _ _ := consistent hd
  rw [formulate_eq hd] at hg ⊢
  exact hc.exists_thinned hc' (keys_of_le h) (measurements_of_le h) hg

end BundleDataset

namespace RigDataset

variable {d : RigDataset α} {options : RigOptions α} {asked more : Nat}

theorem sightings_of_le (h : asked ≤ more) :
    d.sightings more = (d.sightings asked).filter fun x => usable more d.trackLengths x.2.2.2 := by
  simp only [sightings, List.filter_flatMap, List.filter_map, Function.comp_def, filter_usable_of_le h]

theorem point_mem_reads {index : Nat} {s : Snapshot α} {image : SnapshotImage α} {o : Observation α} (i : Nat) :
    .point i ∈ (d.measurement index s image o).reads ↔ i = o.point := by
  simp only [mem_reads, reduceCtorEq, false_or, or_false, RigKey.point.injEq]

theorem measurements_of_le (h : options.minTrackLength ≤ more) :
    d.measurements { options with minTrackLength := more } = (d.measurements options).filter fun m =>
      !(m.named options.loss).readsShort d.trackLengths options.minTrackLength more := by
  rw [measurements_eq, measurements_eq, sightings_of_le h]
  exact map_filter_usable (fun _ => rfl) (fun _ => point_mem_reads) options.loss fun x hx =>
    (List.mem_filter.1 (mem_sightings.1 hx).2.2).2

theorem keys_of_le (h : options.minTrackLength ≤ more) :
    d.keys { options with minTrackLength := more } ⊆ d.keys options := by
  intro k hk
  obtain ⟨x, hx, hread⟩ := mem_keys.1 hk
  rw [sightings_of_le h] at hx
  exact mem_keys.2 ⟨x, List.mem_of_mem_filter hx, hread⟩

theorem exists_thinned [Scalar α] (hd : d.Valid) (h : options.minTrackLength ≤ more) {g : Formulation α}
    (hg : d.formulate { options with minTrackLength := more } = .ok g) :
    ∃ f, d.formulate options = .ok f ∧ f.Thinned
      (fun x => !x.readsShort d.trackLengths options.minTrackLength more) g := by
  have hc : Consistent (d.blockSpec options) _ _ := consistent hd
  have hc' : Consistent (d.blockSpec { options with minTrackLength := more }) _ _ := consistent hd
  rw [formulate_eq hd] at hg ⊢
  exact hc.exists_thinned hc' (keys_of_le h) (measurements_of_le h) hg

end RigDataset

/-- Whatever has a formulation with longer tracks has one with shorter tracks, of which it is a part. -/
theorem formulate_thinned :
    (∀ {α : Type} [Scalar α] (cameras : List (Camera α)) (images : List (Image α)) (points : List (Vec3 α))
        (d : BundleDataset α) (options : BundleOptions α) (more : Nat) (g : Formulation α),
      BundleDataset.make cameras images points = .ok d → options.minTrackLength ≤ more →
      d.formulate { options with minTrackLength := more } = .ok g →
      ∃ f, d.formulate options = .ok f ∧
        f.Thinned (fun x => !x.readsShort d.trackLengths options.minTrackLength more) g) ∧
    (∀ {α : Type} [Scalar α] (cameras : List (Camera α)) (rigs : List (Rig α)) (snapshots : List (Snapshot α))
        (points : List (Vec3 α)) (d : RigDataset α) (options : RigOptions α) (more : Nat) (g : Formulation α),
      RigDataset.make cameras rigs snapshots points = .ok d → options.minTrackLength ≤ more →
      d.formulate { options with minTrackLength := more } = .ok g →
      ∃ f, d.formulate options = .ok f ∧
        f.Thinned (fun x => !x.readsShort d.trackLengths options.minTrackLength more) g) ∧
    ∀ (keep : NamedResidual ℝ → Bool) (f g : Formulation ℝ), f.Thinned keep g →
      ∃ c c', f.problem.cost f.initial = .ok c ∧ g.problem.cost g.initial = .ok c' ∧ c' ≤ c := by
  refine ⟨?_, ?_, fun _ _ _ => Formulation.Thinned.cost_le⟩
  · intro _ _ cameras images points d options more g hd h hg
    exact BundleDataset.exists_thinned (BundleDataset.make_eq_ok.1 hd).2 h hg
  · intro _ _ cameras rigs snapshots points d options more g hd h hg
    exact RigDataset.exists_thinned (RigDataset.make_eq_ok.1 hd).2 h hg

/-! ### A scene -/

/-- Two points, one of which is all that the first image shows. -/
noncomputable def BundleDataset.threeImages : BundleDataset ℝ where
  cameras := [⟨.simplePinhole, [1, 0, 0]⟩]
  images := [⟨0, .one, [⟨0, ⟨1, 0⟩⟩]⟩, ⟨0, .one, [⟨1, ⟨1, 0⟩⟩]⟩, ⟨0, .one, [⟨1, ⟨0, 1⟩⟩]⟩]
  points := [⟨0, 0, 1⟩, ⟨1, 0, 1⟩]

/-- The same points, seen by a camera on a rig. -/
noncomputable def RigDataset.threeSnapshots : RigDataset ℝ where
  cameras := [⟨.simplePinhole, [1, 0, 0]⟩]
  rigs := [⟨[⟨0, .one⟩]⟩]
  snapshots := [⟨0, .one, [⟨0, [⟨0, ⟨1, 0⟩⟩]⟩]⟩, ⟨0, .one, [⟨0, [⟨1, ⟨1, 0⟩⟩]⟩]⟩, ⟨0, .one, [⟨0, [⟨1, ⟨0, 1⟩⟩]⟩]⟩]
  points := [⟨0, 0, 1⟩, ⟨1, 0, 1⟩]

theorem BundleDataset.valid_threeImages : threeImages.Valid where
  images := List.cons_ne_nil _ _
  cameras := by simp [threeImages, Camera.valid_offAxis]
  camera := by simp [threeImages]
  point := by simp [threeImages]

theorem RigDataset.valid_threeSnapshots : threeSnapshots.Valid where
  snapshots := List.cons_ne_nil _ _
  cameras := by simp [threeSnapshots, Camera.valid_offAxis]
  mounted := by simp [threeSnapshots]
  images := by
    intro s hs
    simp only [threeSnapshots, List.mem_cons, List.not_mem_nil, or_false] at hs
    refine ⟨⟨[⟨0, .one⟩]⟩, by rcases hs with rfl | rfl | rfl <;> rfl, fun image himage => ?_⟩
    rcases hs with rfl | rfl | rfl <;> obtain rfl := List.mem_singleton.1 himage <;>
      exact ⟨by simp, by simp [threeSnapshots]⟩

/-- Without the point that is seen only once. -/
theorem formulate_thinned_threeViews :
    (∃ f g c c', BundleDataset.threeImages.formulate ⟨.none, .default, [], [], 1⟩ = .ok f ∧
      BundleDataset.threeImages.formulate ⟨.none, .default, [], [], 2⟩ = .ok g ∧
      f.Thinned (fun x => !x.readsShort [1, 2] 1 2) g ∧
      f.problem.cost f.initial = .ok c ∧ g.problem.cost g.initial = .ok c' ∧ c' ≤ c) ∧
    ∃ f g c c', RigDataset.threeSnapshots.formulate ⟨.none, .default, true, [], [], 1⟩ = .ok f ∧
      RigDataset.threeSnapshots.formulate ⟨.none, .default, true, [], [], 2⟩ = .ok g ∧
      f.Thinned (fun x => !x.readsShort [1, 2] 1 2) g ∧
      f.problem.cost f.initial = .ok c ∧ g.problem.cost g.initial = .ok c' ∧ c' ≤ c := by
  obtain ⟨hbundle, hrig, hcost⟩ := formulate_thinned
  constructor
  · obtain ⟨g, hg⟩ : ∃ g, BundleDataset.threeImages.formulate ⟨.none, .default, [], [], 2⟩ = .ok g :=
      ⟨_, (BundleDataset.formulate_eq_ok BundleDataset.valid_threeImages).2 ⟨List.cons_ne_nil _ _, rfl⟩⟩
    obtain ⟨f, hf, hthinned⟩ := hbundle _ _ _ _ ⟨.none, .default, [], [], 1⟩ 2 g
      (BundleDataset.make_eq_ok.2 ⟨rfl, BundleDataset.valid_threeImages⟩) one_le_two hg
    obtain ⟨c, c', hc, hc', hle⟩ := hcost _ f g hthinned
    exact ⟨f, g, c, c', hf, hg, hthinned, hc, hc', hle⟩
  · obtain ⟨g, hg⟩ : ∃ g, RigDataset.threeSnapshots.formulate ⟨.none, .default, true, [], [], 2⟩ = .ok g :=
      ⟨_, (RigDataset.formulate_eq_ok RigDataset.valid_threeSnapshots).2 ⟨List.cons_ne_nil _ _, rfl⟩⟩
    obtain ⟨f, hf, hthinned⟩ := hrig _ _ _ _ _ ⟨.none, .default, true, [], [], 1⟩ 2 g
      (RigDataset.make_eq_ok.2 ⟨rfl, RigDataset.valid_threeSnapshots⟩) one_le_two hg
    obtain ⟨c, c', hc, hc', hle⟩ := hcost _ f g hthinned
    exact ⟨f, g, c, c', hf, hg, hthinned, hc, hc', hle⟩

end MultiView
