import MultiView.Reconstruction.Draft
import MultiView.Proofs.Reconstruction.Assembly
import MultiView.Proofs.Reconstruction.Tracks

/-!
# What drafting does

`Draft.of` is the draft of a list of keys and a list of measurements. Each operation takes one such draft to another:
it adds a key that is new (`run_add`), adds a key unless it is there (`run_share`), or adds a measurement
(`run_addResidual`). The ids that are given out are positions of keys, and these stay (`idxOf_addKeys`).
-/

namespace MultiView

open Measurement

variable {κ α : Type}

namespace Drafting

/-! ## Reading -/

theorem run_item {τ : Type} {xs : List τ} {i : Nat} {x : τ} (h : xs[i]? = some x) (s : Draft κ α) :
    (item xs i).run s = .ok (x, s) := by
  simp [item, h, orFail]

theorem run_isUsable {asked : Nat} {tracks : List Nat} {o : Observation α} (h : o.point < tracks.length)
    (s : Draft κ α) : (isUsable asked tracks o).run s = .ok (usable asked tracks o, s) := by
  have hitem := List.getElem?_eq_getElem h
  simp [isUsable, run_item hitem, usable, hitem]

section Lists

variable {τ : Type} {xs : List τ} {test : τ → Drafting κ α Bool} {q : τ → Bool} {s : Draft κ α}

theorem run_filterAuxM (h : ∀ x ∈ xs, (test x).run s = .ok (q x, s)) (acc : List τ) :
    (xs.filterAuxM test acc).run s = .ok ((xs.filter q).reverse ++ acc, s) := by
  induction xs generalizing acc with
  | nil => rfl
  | cons x xs ih =>
    have hx := h x List.mem_cons_self
    have ih := ih fun y hy => h y (List.mem_cons_of_mem _ hy)
    cases hq : q x <;> simp [List.filterAuxM, hx, ih, hq]

/-- Filtering by tests that change nothing. -/
theorem run_filterM (h : ∀ x ∈ xs, (test x).run s = .ok (q x, s)) :
    (xs.filterM test).run s = .ok (xs.filter q, s) := by
  simp [List.filterM, run_filterAuxM h]

theorem run_anyM (h : ∀ x ∈ xs, (test x).run s = .ok (q x, s)) : (xs.anyM test).run s = .ok (xs.any q, s) := by
  induction xs with
  | nil => rfl
  | cons x xs ih =>
    have hx := h x List.mem_cons_self
    have ih := ih fun y hy => h y (List.mem_cons_of_mem _ hy)
    cases hq : q x <;> simp [hx, ih, hq]

end Lists

end Drafting

variable [DecidableEq κ] [BlockKey κ]

/-- The draft of keys and measurements, where keys that satisfy `again` may be asked for again. -/
def Draft.of (spec : κ → BlockSpec α) (loss : RobustLoss α) (again : κ → Bool) (ks : List κ)
    (ms : List (Measurement κ α)) : Draft κ α :=
  { toFormulation := assemble spec loss ks ms
    shared := ⟨(ks.filter again).map fun k => (k, ks.idxOf k)⟩ }

variable {spec : κ → BlockSpec α} {loss : RobustLoss α} {again : κ → Bool} {ks : List κ} {ms : List (Measurement κ α)}

/-- A key that may be asked for again has its position in the table. -/
theorem Draft.get?_shared {k : κ} (hagain : again k = true) :
    (Draft.of spec loss again ks ms).shared.get? k = if k ∈ ks then some (ks.idxOf k) else none := by
  have h : ∀ e ∈ (ks.filter again).map fun k => (k, ks.idxOf k), (some ∘ ks.idxOf) e.1 = some e.2 := by
    intro e he
    obtain ⟨j, -, rfl⟩ := List.mem_map.1 he
    rfl
  have hmem : k ∈ ((ks.filter again).map fun k => (k, ks.idxOf k)).map (·.1) ↔ k ∈ ks := by simp [hagain]
  have hlookup := Assoc.lookup_of_forall h k
  simp only [hmem] at hlookup
  exact hlookup

namespace Drafting

/-! ## Growing -/

theorem run_addResidual (m : Measurement κ α) :
    (addResidual m.factor (m.reads.map ks.idxOf) loss).run (Draft.of spec loss again ks ms) =
      .ok ((), Draft.of spec loss again ks (ms ++ [m])) := by
  simp [addResidual, Draft.of, assemble_append, block]

/-! ### Loops -/

section Loops

variable {τ : Type}

/-- A loop whose rounds each add keys and measurements, as long as an invariant of what is still to come holds. -/
theorem run_forM {body : τ → Drafting κ α Unit} (keys : τ → List κ) (measurements : τ → List (Measurement κ α))
    (Inv : List τ → List κ → List (Measurement κ α) → Prop)
    (hstep : ∀ x xs ks ms, Inv (x :: xs) ks ms →
      (body x).run (Draft.of spec loss again ks ms) =
        .ok ((), Draft.of spec loss again (addKeys ks (keys x)) (ms ++ measurements x)) ∧
      Inv xs (addKeys ks (keys x)) (ms ++ measurements x))
    {xs : List τ} (h : Inv xs ks ms) :
    (xs.forM body).run (Draft.of spec loss again ks ms) =
      .ok ((), Draft.of spec loss again (addKeys ks (xs.flatMap keys)) (ms ++ xs.flatMap measurements)) := by
  induction xs generalizing ks ms with
  | nil => simp
  | cons x xs ih =>
    obtain ⟨hbody, hnext⟩ := hstep x xs ks ms h
    rw [List.flatMap_cons, List.flatMap_cons, addKeys_append, ← List.append_assoc, ← ih hnext]
    simp [hbody]

/-- A loop that starts from some keys, where the measurements of each round read the keys of that round and these. -/
theorem run_forM_within {body : τ → Drafting κ α Unit} (keys : τ → List κ) (measurements : τ → List (Measurement κ α))
    {xs : List τ} (hw : Within ms ks)
    (hstep : ∀ x ∈ xs, ∀ js ms, ks <+: js → Within ms js → (body x).run (Draft.of spec loss again js ms) =
      .ok ((), Draft.of spec loss again (addKeys js (keys x)) (ms ++ measurements x)))
    (hwithin : ∀ x ∈ xs, ∀ js, ks <+: js → keys x ⊆ js → Within (measurements x) js) :
    (xs.forM body).run (Draft.of spec loss again ks ms) =
      .ok ((), Draft.of spec loss again (addKeys ks (xs.flatMap keys)) (ms ++ xs.flatMap measurements)) := by
  refine run_forM keys measurements (fun ys js ms => (∀ y ∈ ys, y ∈ xs) ∧ ks <+: js ∧ Within ms js) ?_
    ⟨fun _ hx => hx, List.prefix_refl ks, hw⟩
  rintro x ys js ms ⟨hmem, hext, hw⟩
  have hx : x ∈ xs := hmem x List.mem_cons_self
  refine ⟨hstep x hx js ms hext hw, fun y hy => hmem y (List.mem_cons_of_mem _ hy),
    hext.trans (prefix_addKeys js (keys x)), ?_⟩
  exact hw.append fun ls hls => hwithin x hx ls (hext.trans hls)

/-- A loop over positions that starts from nothing, where each position has keys of its own that no other asks for. -/
theorem run_zipIdx_forM {xs : List τ} {body : τ × Nat → Drafting κ α Unit} (keys : Nat → τ → List κ)
    (measurements : Nat → τ → List (Measurement κ α)) (own : Nat → List κ)
    (hstep : ∀ i x, xs[i]? = some x → ∀ ks ms, Within ms ks → (∀ k ∈ own i, k ∉ ks) →
      (body (x, i)).run (Draft.of spec loss again ks ms) =
        .ok ((), Draft.of spec loss again (addKeys ks (keys i x)) (ms ++ measurements i x)))
    (hwithin : ∀ i x ks, keys i x ⊆ ks → Within (measurements i x) ks)
    (hown : ∀ i j x, j ≠ i → ∀ k ∈ own j, k ∉ keys i x) :
    (xs.zipIdx.forM body).run .empty =
      .ok ((), Draft.of spec loss again (addKeys [] (xs.zipIdx.flatMap fun x => keys x.2 x.1))
        (xs.zipIdx.flatMap fun x => measurements x.2 x.1)) := by
  have hnodup : (xs.zipIdx.map (·.2)).Nodup := by
    rw [List.zipIdx_map_snd]
    exact List.nodup_range'
  -- what is still to come has not asked for its own keys yet
  refine run_forM (fun x => keys x.2 x.1) (fun x => measurements x.2 x.1)
    (fun ys ks ms => (∀ y ∈ ys, y ∈ xs.zipIdx) ∧ (ys.map (·.2)).Nodup ∧ Within ms ks ∧
      ∀ y ∈ ys, ∀ k ∈ own y.2, k ∉ ks) ?_
    ⟨fun _ hx => hx, hnodup, within_nil [], fun _ _ _ _ => List.not_mem_nil⟩
  rintro ⟨x, i⟩ ys ks ms ⟨hmem, hnodup, hw, hfresh⟩
  rw [List.map_cons, List.nodup_cons] at hnodup
  have hindex : xs[i]? = some x := List.mk_mem_zipIdx_iff_getElem?.1 (hmem _ List.mem_cons_self)
  refine ⟨hstep i x hindex ks ms hw (hfresh _ List.mem_cons_self), fun y hy => hmem y (List.mem_cons_of_mem _ hy),
    hnodup.2, hw.append fun js _ => hwithin i x js, ?_⟩
  intro y hy k hk hkmem
  have hne : y.2 ≠ i := fun heq => hnodup.1 (List.mem_map.2 ⟨y, hy, heq⟩)
  rcases mem_addKeys.1 hkmem with hold | hnew
  · exact hfresh y (List.mem_cons_of_mem _ hy) k hk hold
  · exact hown i y.2 x hne k hk hnew

end Loops

/-! ### Blocks -/

variable [LawfulBlockKey κ] {k : κ}

/-- A new key is added, whatever the table of ids. -/
theorem run_add_of_notMem (hw : Within ms ks) (hk : k ∉ ks) (table : Assoc κ Nat) :
    (add k (spec k)).run { toFormulation := assemble spec loss ks ms, shared := table } =
      .ok ((addKey ks k).idxOf k, { toFormulation := assemble spec loss (addKey ks k) ms, shared := table }) := by
  have hlength : (assemble spec loss ks ms).problem.params.length = ks.length := by simp [assemble]
  have hidx : (ks ++ [k]).idxOf k = ks.length := by rw [List.idxOf_append_of_notMem hk]; simp
  rw [addKey_of_notMem hk, assemble_concat hw hk, hidx, ← hlength]
  rfl

theorem run_add (hw : Within ms ks) (hk : k ∉ ks) (hagain : again k = false) :
    (add k (spec k)).run (Draft.of spec loss again ks ms) =
      .ok ((addKey ks k).idxOf k, Draft.of spec loss again (addKey ks k) ms) := by
  rw [Draft.of, run_add_of_notMem hw hk, Draft.of, addKey_of_notMem hk, List.filter_append,
    List.filter_cons_of_neg (by simp [hagain]), List.filter_nil, List.append_nil, map_idxOf_filter_concat]

/-- A key that is asked for is there afterwards, and its position is the answer. -/
theorem run_share (hw : Within ms ks) (hagain : again k = true) {read : Drafting κ α (BlockSpec α)}
    (hread : read.run (Draft.of spec loss again ks ms) = .ok (spec k, Draft.of spec loss again ks ms)) :
    (share k read).run (Draft.of spec loss again ks ms) =
      .ok ((addKey ks k).idxOf k, Draft.of spec loss again (addKey ks k) ms) := by
  have htable : (Draft.of spec loss again ks ms).shared.get? k = _ := Draft.get?_shared hagain
  by_cases hk : k ∈ ks
  · rw [if_pos hk] at htable
    simp [share, htable, addKey_of_mem hk, pure_eq_ok]
  · rw [if_neg hk] at htable
    have hadd : (add k (spec k)).run (Draft.of spec loss again ks ms) = _ := run_add_of_notMem hw hk _
    have htables : (Draft.of spec loss again ks ms).shared.insert k ((addKey ks k).idxOf k) =
        (Draft.of spec loss again (addKey ks k) ms).shared := by
      have hentry : k ∉ ((ks.filter again).map fun k => (k, ks.idxOf k)).map (·.1) := by simp [hk]
      have hidx : (ks ++ [k]).idxOf k = ks.length := by rw [List.idxOf_append_of_notMem hk]; simp
      simp [Draft.of, Assoc.insert, Assoc.insertInto_of_not_mem hentry, addKey_of_notMem hk, hagain,
        map_idxOf_filter_concat]
    simp only [share, StateT.run_bind, StateT.run_get, pure_bind, htable, hread, hadd, ok_bind]
    exact congrArg
      (fun table => Except.ok ((addKey ks k).idxOf k, Draft.mk (assemble spec loss (addKey ks k) ms) table)) htables

theorem run_sharePoint (hw : Within ms ks) (hagain : again k = true) {constant : Bool} {points : List (Vec3 α)}
    {i : Nat} {p : Vec3 α} (hp : points[i]? = some p) (hspec : spec k = .point constant p) :
    (sharePoint k constant points i).run (Draft.of spec loss again ks ms) =
      .ok ((addKey ks k).idxOf k, Draft.of spec loss again (addKey ks k) ms) := by
  refine run_share hw hagain ?_
  rw [StateT.run_bind, run_item hp, ok_bind, hspec]
  rfl

/-! ## Poses -/

omit [LawfulBlockKey κ] in
/-- The first id of two is still right when the second key is there. -/
theorem run_pair {j : κ} {first second : Drafting κ α Nat}
    (hfirst : first.run (Draft.of spec loss again ks ms) =
      .ok ((addKey ks j).idxOf j, Draft.of spec loss again (addKey ks j) ms))
    (hsecond : second.run (Draft.of spec loss again (addKey ks j) ms) =
      .ok ((addKey (addKey ks j) k).idxOf k, Draft.of spec loss again (addKey (addKey ks j) k) ms)) :
    (do return (← first, ← second) : Drafting κ α (Nat × Nat)).run (Draft.of spec loss again ks ms) =
      .ok (((addKeys ks [j, k]).idxOf j, (addKeys ks [j, k]).idxOf k),
        Draft.of spec loss again (addKeys ks [j, k]) ms) := by
  have hidx : (addKeys ks [j, k]).idxOf j = (addKey ks j).idxOf j := idxOf_addKeys (by simp) [k]
  rw [hidx]
  simp only [StateT.run_bind, hfirst, hsecond, ok_bind, StateT.run_pure, pure_eq_ok]
  rfl

variable {rotation trans : κ} {constant : Bool} {pose : Pose α}

theorem run_addPose (hw : Within ms ks) (hrotation : rotation ∉ ks) (htrans : trans ∉ ks) (hne : trans ≠ rotation)
    (hagain : again rotation = false ∧ again trans = false) (hspec : spec rotation = .rotation constant pose)
    (hspec' : spec trans = .trans constant pose) :
    (addPose rotation trans constant pose).run (Draft.of spec loss again ks ms) =
      .ok (((addKeys ks [rotation, trans]).idxOf rotation, (addKeys ks [rotation, trans]).idxOf trans),
        Draft.of spec loss again (addKeys ks [rotation, trans]) ms) := by
  have hw' : Within ms (addKey ks rotation) := hw.extend (prefix_addKey ks rotation)
  have htrans' : trans ∉ addKey ks rotation := by simp [htrans, hne]
  exact run_pair (hspec ▸ run_add hw hrotation hagain.1) (hspec' ▸ run_add hw' htrans' hagain.2)

theorem run_sharePose (hw : Within ms ks) (hagain : again rotation = true ∧ again trans = true)
    (hspec : spec rotation = .rotation constant pose) (hspec' : spec trans = .trans constant pose) :
    (sharePose rotation trans constant pose).run (Draft.of spec loss again ks ms) =
      .ok (((addKeys ks [rotation, trans]).idxOf rotation, (addKeys ks [rotation, trans]).idxOf trans),
        Draft.of spec loss again (addKeys ks [rotation, trans]) ms) := by
  have hw' : Within ms (addKey ks rotation) := hw.extend (prefix_addKey ks rotation)
  exact run_pair (run_share hw hagain.1 (by rw [hspec]; rfl)) (run_share hw' hagain.2 (by rw [hspec']; rfl))

end Drafting

end MultiView
