import Mathlib.Algebra.Order.BigOperators.Group.List
import Mathlib.Algebra.Order.Ring.Nat
import Mathlib.Data.Fintype.EquivFin
import Mathlib.Data.List.Induction
import MultiView.Proofs.Camera.Valid
import MultiView.Proofs.Problem.Faults

/-!
# Problems built step by step

A problem is built from the empty one by additions of parameter blocks and residual blocks. Blocks get their positions
as ids and keep them (`Problem.params_build`), a name is found at the first block of that name, and what is built is
valid exactly if its additions are consistent (`Problem.validate_build`).

Validity is lost for good by any addition that does not fit, except where all that is wrong is that a residual refers to
blocks that are not there yet. Such a residual may be completed exactly if it does not ask for different blocks at one
position (`Addition.possible_iff`). All this is `Problem.build_stepwise`.
-/

namespace MultiView

variable {α : Type}

/-- The fields of a parameter block but for its id. -/
structure BlockFields (α : Type) where
  name : String
  dim : Nat
  manifold : Manifold
  fixed : FixedMask
  bounds : Option (List (Bound α))

namespace BlockFields

/-- The block of these fields whose id is a position. -/
def block (f : BlockFields α) (position : Nat) : ParamBlock α :=
  ⟨position, f.name, f.dim, f.manifold, f.fixed, f.bounds⟩

/-- Have the fields the length and the manifold of a slot? -/
def Fills (f : BlockFields α) (slot : Slot) : Prop := f.dim = slot.dim ∧ f.manifold = slot.manifold

end BlockFields

/-- One step of building a problem. -/
inductive Addition (α : Type) where
  | param (fields : BlockFields α)
  | residual (factor : Factor α) (ids : List Nat) (loss : RobustLoss α)

namespace Addition

def fields? : Addition α → Option (BlockFields α)
  | param fields => some fields
  | residual .. => none

def residual? : Addition α → Option (ResidualBlock α)
  | param _ => none
  | residual factor ids loss => some (.make factor ids loss)

/-- The fields of the blocks that are added, in order. -/
def fields (as : List (Addition α)) : List (BlockFields α) := as.filterMap fields?

theorem fields_append (as more : List (Addition α)) : fields (as ++ more) = fields as ++ fields more :=
  List.filterMap_append

end Addition

namespace Problem

def add (p : Problem α) : Addition α → Problem α
  | .param f => p.addParam f.name f.dim f.manifold f.fixed f.bounds
  | .residual factor ids loss => p.addResidual (.make factor ids loss)

/-- The problem that additions make of the empty one, one after another. -/
def build (as : List (Addition α)) : Problem α := as.foldl add empty

theorem build_concat (as : List (Addition α)) (a : Addition α) : build (as ++ [a]) = (build as).add a := by
  rw [build, List.foldl_append, ← build, List.foldl_cons, List.foldl_nil]

/-! ## Positions and names -/

/-- Each block is at its position, which is its id. -/
theorem params_build (as : List (Addition α)) :
    (build as).params = (Addition.fields as).mapIdx fun i f => f.block i := by
  induction as using List.reverseRecOn with
  | nil => rfl
  | append_singleton as a ih =>
    rw [build_concat, Addition.fields_append]
    cases a with
    | residual factor ids loss =>
      show (build as).params = _
      rw [ih, show Addition.fields [Addition.residual factor ids loss] = [] from rfl, List.append_nil]
    | param f =>
      show (build as).params ++ [f.block (build as).params.length] = _
      rw [ih, List.length_mapIdx, show Addition.fields [Addition.param f] = [f] from rfl, List.mapIdx_concat]

theorem residuals_build (as : List (Addition α)) : (build as).residuals = as.filterMap Addition.residual? := by
  induction as using List.reverseRecOn with
  | nil => rfl
  | append_singleton as a ih =>
    rw [build_concat, List.filterMap_append, ← ih]
    cases a with
    | residual factor ids loss => rfl
    | param f => exact (List.append_nil _).symm

theorem getElem?_params_build (as : List (Addition α)) (k : Nat) :
    (build as).params[k]? = (Addition.fields as)[k]?.map (·.block k) := by
  rw [params_build, List.getElem?_mapIdx]

/-- A block of a built problem comes from an addition, at its own position. -/
theorem getElem?_params_build_eq_some {as : List (Addition α)} {k : Nat} {b : ParamBlock α} :
    (build as).params[k]? = some b ↔ ∃ f : BlockFields α, (Addition.fields as)[k]? = some f ∧ f.block k = b := by
  rw [getElem?_params_build, Option.map_eq_some_iff]

/-- A residual block of a built problem comes from an addition. -/
theorem exists_residual_of_build {as : List (Addition α)} {r : ResidualBlock α} (h : r ∈ (build as).residuals) :
    ∃ factor ids loss, .residual factor ids loss ∈ as ∧ r = .make factor ids loss := by
  rw [residuals_build] at h
  obtain ⟨a, ha, hr⟩ := List.mem_filterMap.1 h
  cases a with
  | param f => cases hr
  | residual factor ids loss => exact ⟨factor, ids, loss, ha, (Option.some.inj hr).symm⟩

theorem map_name_params_build (as : List (Addition α)) :
    (build as).params.map (·.name) = (Addition.fields as).map (·.name) := by
  refine List.ext_getElem? fun i => ?_
  rw [List.getElem?_map, getElem?_params_build, Option.map_map, List.getElem?_map]
  rfl

/-- A name is found at the first block of that name. -/
theorem paramByName?_build (as : List (Addition α)) (name : String) :
    (build as).paramByName? name = (Addition.fields as).findIdx? (·.name == name) := by
  rw [paramByName?, params_build]
  induction Addition.fields as using List.reverseRecOn with
  | nil => rfl
  | append_singleton fs f ih =>
    rw [List.mapIdx_concat, List.find?_append, Option.map_or, ih, List.findIdx?_append]
    cases h : f.name == name <;> simp [h, BlockFields.block]

theorem paramByName?_build_eq_some {as : List (Addition α)} {name : String} {k : Nat} :
    (build as).paramByName? name = some k ↔ (∃ f, (Addition.fields as)[k]? = some f ∧ f.name = name) ∧
      ∀ j f, j < k → (Addition.fields as)[j]? = some f → f.name ≠ name := by
  rw [paramByName?_build, List.findIdx?_eq_some_iff_getElem]
  constructor
  · rintro ⟨hlt, hname, hbefore⟩
    refine ⟨⟨_, List.getElem?_eq_getElem hlt, beq_iff_eq.1 hname⟩, fun j f hj hf hfound => ?_⟩
    obtain ⟨hlt', rfl⟩ := List.getElem?_eq_some_iff.1 hf
    exact hbefore j hj (beq_iff_eq.2 hfound)
  · rintro ⟨⟨f, hf, hname⟩, hbefore⟩
    obtain ⟨hlt, rfl⟩ := List.getElem?_eq_some_iff.1 hf
    refine ⟨hlt, beq_iff_eq.2 hname, fun j hj hfound => ?_⟩
    exact hbefore j _ hj (List.getElem?_eq_getElem (hj.trans hlt)) (beq_iff_eq.1 hfound)

/-- A name stays where it is found. -/
theorem paramByName?_build_append {as : List (Addition α)} {name : String} {k : Nat}
    (h : (build as).paramByName? name = some k) (more : List (Addition α)) :
    (build (as ++ more)).paramByName? name = some k := by
  rw [paramByName?_build] at h
  rw [paramByName?_build, Addition.fields_append, List.findIdx?_append, h, Option.some_or]

end Problem

/-! ## Ids and slots -/

/-- Does each id refer to fields that fit its slot? -/
def Matches (fs : List (BlockFields α)) (ids : List Nat) (slots : List Slot) : Prop :=
  List.Forall₂ (fun id slot => ∃ f, fs[id]? = some f ∧ f.Fills slot) ids slots

/-- Later blocks do not change what ids refer to. -/
theorem Matches.append {fs : List (BlockFields α)} {ids : List Nat} {slots : List Slot} (h : Matches fs ids slots)
    (gs : List (BlockFields α)) : Matches (fs ++ gs) ids slots := by
  refine h.imp fun id slot hid => ?_
  obtain ⟨f, hf, hfills⟩ := hid
  have hlt := (List.getElem?_eq_some_iff.1 hf).1
  exact ⟨f, by rw [List.getElem?_append_left hlt, hf], hfills⟩

/-- Residual blocks of a built problem have the lengths that their factors say. -/
theorem Problem.wellFormed_residual_build {as : List (Addition α)} {factor : Factor α} {ids : List Nat}
    {loss : RobustLoss α} : (ResidualBlock.make factor ids loss).WellFormed (build as).params ↔
      Matches (Addition.fields as) ids factor.layout := by
  have hslot : ∀ (id : Nat) (slot : Slot), (∃ b, (build as).params[id]? = some b ∧ b.Fills slot) ↔
      ∃ f, (Addition.fields as)[id]? = some f ∧ f.Fills slot := by
    intro id slot
    constructor
    · rintro ⟨b, hb, hfills⟩
      obtain ⟨f, hf, rfl⟩ := getElem?_params_build_eq_some.1 hb
      exact ⟨f, hf, hfills⟩
    · rintro ⟨f, hf, hfills⟩
      exact ⟨f.block id, getElem?_params_build_eq_some.2 ⟨f, hf, rfl⟩, hfills⟩
  constructor
  · intro h
    exact h.slots.imp fun id slot => (hslot id slot).1
  · intro h
    exact ⟨rfl, h.imp fun id slot => (hslot id slot).2⟩

/-- Ids that fit their slots as far as their blocks are there, and that do not ask for different blocks at one
position. -/
structure Completable (fs : List (BlockFields α)) (ids : List Nat) (slots : List Slot) : Prop where
  count : ids.length = slots.length
  present : ∀ id slot f, (id, slot) ∈ ids.zip slots → fs[id]? = some f → f.Fills slot
  agree : ∀ id slot slot', (id, slot) ∈ ids.zip slots → (id, slot') ∈ ids.zip slots →
    slot.dim = slot'.dim ∧ slot.manifold = slot'.manifold

/-- Ids that fit their slots later on. -/
theorem Matches.completable {fs gs : List (BlockFields α)} {ids : List Nat} {slots : List Slot}
    (h : Matches (fs ++ gs) ids slots) : Completable fs ids slots where
  count := h.length_eq
  present := by
    intro id slot f hmem hf
    obtain ⟨f', hf', hfills⟩ := List.forall₂_zip h hmem
    have hlt := (List.getElem?_eq_some_iff.1 hf).1
    rw [List.getElem?_append_left hlt, hf] at hf'
    exact Option.some.inj hf' ▸ hfills
  agree := by
    intro id slot slot' hmem hmem'
    obtain ⟨f, hf, hdim, hmanifold⟩ := List.forall₂_zip h hmem
    obtain ⟨f', hf', hdim', hmanifold'⟩ := List.forall₂_zip h hmem'
    obtain rfl := Option.some.inj (hf.symm.trans hf')
    exact ⟨hdim.symm.trans hdim', hmanifold.symm.trans hmanifold'⟩

/-- Ids whose blocks are all there. -/
theorem Completable.matches_of_lt {fs : List (BlockFields α)} {ids : List Nat} {slots : List Slot}
    (h : Completable fs ids slots) (hlt : ∀ id ∈ ids, id < fs.length) : Matches fs ids slots := by
  refine List.forall₂_iff_zip.2 ⟨h.count, fun {id slot} hmem => ?_⟩
  have hf := List.getElem?_eq_getElem (hlt id (List.of_mem_zip hmem).1)
  exact ⟨_, hf, h.present id slot _ hmem hf⟩

/-- The slot that pairs ask for at a position; that of a point if they ask for none. -/
def slotAt (pairs : List (Nat × Slot)) (i : Nat) : Slot :=
  ((pairs.find? (·.1 == i)).map (·.2)).getD (.vector .point)

theorem slotAt_cases (pairs : List (Nat × Slot)) (i : Nat) :
    (i, slotAt pairs i) ∈ pairs ∨ slotAt pairs i = .vector .point ∧ ∀ slot, (i, slot) ∉ pairs := by
  rw [slotAt]
  cases h : pairs.find? (·.1 == i) with
  | none => exact .inr ⟨rfl, fun slot hmem => by simpa using List.find?_eq_none.1 h _ hmem⟩
  | some pair =>
    obtain rfl : pair.1 = i := by simpa using List.find?_some h
    exact .inl (List.mem_of_find?_eq_some h)

/-- Factors ask for blocks of lengths that their manifolds have. -/
theorem Factor.isLength_layout (factor : Factor α) : ∀ slot ∈ factor.layout, slot.manifold.IsLength slot.dim := by
  have hrotation : ∀ role, (Slot.rotation role).manifold.IsLength (Slot.rotation role).dim := fun _ => rfl
  have hvector : ∀ role, (Slot.vector role).manifold.IsLength (Slot.vector role).dim := fun _ => Nat.succ_pos 2
  have hintrinsics : ∀ model, (Slot.intrinsics model).manifold.IsLength (Slot.intrinsics model).dim :=
    CameraModel.numParams_pos
  have hdirection : (⟨.trans, 3, .s2⟩ : Slot).manifold.IsLength 3 := rfl
  cases factor <;> simp [Factor.layout, hrotation, hvector, hintrinsics, hdirection]

/-! ## Validity -/

section Validity

variable [Scalar α]

/-- A length of the manifold, and fixed positions and bounds for entries of the block only. -/
structure BlockFields.Admissible (f : BlockFields α) : Prop where
  dim : f.manifold.IsLength f.dim
  fixed : ∀ i, f.fixed.isFixed i = true → i < f.dim
  bounds : ∀ bound ∈ f.bounds.getD [], bound.index < f.dim ∧ bound.lower ≤ bound.upper

theorem BlockFields.wellFormed_block {f : BlockFields α} {position : Nat} :
    (f.block position).WellFormed ↔ f.Admissible := by
  constructor
  · intro h
    exact ⟨Manifold.admits_eq_true.1 h.dim, h.fixed, h.bounds⟩
  · intro h
    exact ⟨Manifold.admits_eq_true.2 h.dim, h.fixed, h.bounds⟩

/-- Additions of blocks with different names and admissible fields, and of residuals whose ids fit their slots. -/
structure Addition.Consistent (as : List (Addition α)) : Prop where
  names : ((Addition.fields as).map (·.name)).Nodup
  admissible : ∀ f ∈ Addition.fields as, f.Admissible
  slots : ∀ factor ids loss, .residual factor ids loss ∈ as → Matches (Addition.fields as) ids factor.layout

theorem Problem.validate_build {as : List (Addition α)} : (build as).validate = .ok () ↔ Addition.Consistent as := by
  rw [validate_eq_ok]
  constructor
  · intro h
    refine ⟨map_name_params_build as ▸ h.names, fun f hf => ?_, fun factor ids loss ha => ?_⟩
    · obtain ⟨k, hk⟩ := List.mem_iff_getElem?.1 hf
      have hb := getElem?_params_build_eq_some.2 ⟨f, hk, rfl⟩
      exact BlockFields.wellFormed_block.1 (h.params _ (List.mem_of_getElem? hb))
    · refine wellFormed_residual_build.1 (h.residuals (.make factor ids loss) ?_)
      rw [residuals_build]
      exact List.mem_filterMap.2 ⟨_, ha, rfl⟩
  · intro h
    refine ⟨fun i b hb => ?_, map_name_params_build as ▸ h.names, fun b hb => ?_, fun r hr => ?_⟩
    · obtain ⟨f, -, rfl⟩ := getElem?_params_build_eq_some.1 hb
      rfl
    · obtain ⟨k, hk⟩ := List.mem_iff_getElem?.1 hb
      obtain ⟨f, hf, rfl⟩ := getElem?_params_build_eq_some.1 hk
      exact BlockFields.wellFormed_block.2 (h.admissible f (List.mem_of_getElem? hf))
    · obtain ⟨factor, ids, loss, ha, rfl⟩ := exists_residual_of_build hr
      exact wellFormed_residual_build.2 (h.slots factor ids loss ha)

/-! ## Completions -/

/-- Any number of blocks may be added whose lengths and manifolds are given by their positions. -/
theorem exists_padding {fs : List (BlockFields α)} (hnames : (fs.map (·.name)).Nodup) {slot : Nat → Slot}
    (hslot : ∀ i, (slot i).manifold.IsLength (slot i).dim) (n : Nat) :
    ∃ gs : List (BlockFields α), gs.length = n ∧ ((fs ++ gs).map (·.name)).Nodup ∧ (∀ g ∈ gs, g.Admissible) ∧
      ∀ i f, fs.length ≤ i → (fs ++ gs)[i]? = some f → f.Fills (slot i) := by
  induction n with
  | zero =>
    refine ⟨[], rfl, by rwa [List.append_nil], by simp, fun i f hi hf => ?_⟩
    rw [List.append_nil] at hf
    exact absurd (List.getElem?_eq_some_iff.1 hf).1 (by omega)
  | succ n ih =>
    obtain ⟨gs, hlength, hnodup, hadmissible, hfills⟩ := ih
    obtain ⟨name, hfresh⟩ := Infinite.exists_notMem_finset ((fs ++ gs).map (·.name)).toFinset
    rw [List.mem_toFinset] at hfresh
    let next : BlockFields α := ⟨name, (slot (fs.length + n)).dim, (slot (fs.length + n)).manifold, .free, none⟩
    refine ⟨gs ++ [next], by simp [hlength], ?_, ?_, fun i f hi hf => ?_⟩
    · rw [← List.append_assoc, List.map_append]
      exact hnodup.append (List.nodup_singleton _) (List.disjoint_singleton.2 hfresh)
    · intro g hg
      rcases List.mem_append.1 hg with hg | hg
      · exact hadmissible g hg
      · obtain rfl := List.mem_singleton.1 hg
        exact ⟨hslot _, by simp [next], by simp [next]⟩
    · rw [← List.append_assoc, List.getElem?_append] at hf
      split at hf
      · exact hfills i f hi hf
      · next hge =>
        -- only one position is left
        obtain ⟨hlt, rfl⟩ := List.getElem?_eq_some_iff.1 hf
        have hi : i = fs.length + n := by
          simp only [List.length_append, List.length_singleton, hlength] at hge hlt
          omega
        subst hi
        simp only [List.getElem_singleton]
        exact ⟨rfl, rfl⟩

/-- Residuals whose ids may be completed are completed by adding the blocks that they ask for. -/
theorem Completable.exists_matches {fs : List (BlockFields α)} (hnames : (fs.map (·.name)).Nodup) {factor : Factor α}
    {ids : List Nat} (h : Completable fs ids factor.layout) :
    ∃ gs : List (BlockFields α), ((fs ++ gs).map (·.name)).Nodup ∧ (∀ g ∈ gs, g.Admissible) ∧
      Matches (fs ++ gs) ids factor.layout := by
  have hslot : ∀ i, (slotAt (ids.zip factor.layout) i).manifold.IsLength (slotAt (ids.zip factor.layout) i).dim := by
    intro i
    rcases slotAt_cases (ids.zip factor.layout) i with hmem | ⟨hslot, -⟩
    · exact factor.isLength_layout _ (List.of_mem_zip hmem).2
    · rw [hslot]
      exact Nat.succ_pos 2
  obtain ⟨gs, hlength, hnodup, hadmissible, hfills⟩ := exists_padding hnames hslot (ids.sum + 1)
  refine ⟨gs, hnodup, hadmissible, List.forall₂_iff_zip.2 ⟨h.count, fun {id slot} hmem => ?_⟩⟩
  have hlt : id < (fs ++ gs).length := by
    have hle : id ≤ ids.sum := List.le_sum_of_mem (List.of_mem_zip hmem).1
    rw [List.length_append]
    omega
  refine ⟨_, List.getElem?_eq_getElem hlt, ?_⟩
  by_cases hpresent : id < fs.length
  · exact h.present id slot _ hmem (by rw [List.getElem_append_left hpresent, List.getElem?_eq_getElem hpresent])
  · obtain ⟨hdim, hmanifold⟩ := hfills id _ (Nat.not_lt.1 hpresent) (List.getElem?_eq_getElem hlt)
    -- the block was made for the first slot that asks for it, and the others ask for the same
    rcases slotAt_cases (ids.zip factor.layout) id with hfirst | ⟨-, hnone⟩
    · obtain ⟨hdim', hmanifold'⟩ := h.agree id _ _ hfirst hmem
      exact ⟨hdim.trans hdim', hmanifold.trans hmanifold'⟩
    · exact absurd hmem (hnone slot)

/-! ## Extensions -/

variable {as more : List (Addition α)} {a : Addition α}

namespace Addition

/-- Does an addition fit what was added before it? -/
def Fits (fs : List (BlockFields α)) : Addition α → Prop
  | param f => f.name ∉ fs.map (·.name) ∧ f.Admissible
  | residual factor ids _ => Matches fs ids factor.layout

/-- Does an addition refer to a block that is not there? -/
def ReadsMissing (fs : List (BlockFields α)) : Addition α → Prop
  | param _ => False
  | residual _ ids _ => ∃ id ∈ ids, fs.length ≤ id

/-- Does an addition fit what was added before it, or may it once there are more blocks? -/
def Possible (fs : List (BlockFields α)) : Addition α → Prop
  | param f => f.name ∉ fs.map (·.name) ∧ f.Admissible
  | residual factor ids _ => Completable fs ids factor.layout

theorem Possible.fits {fs : List (BlockFields α)} (h : a.Possible fs) (hreads : ¬a.ReadsMissing fs) : a.Fits fs := by
  cases a with
  | param f => exact h
  | residual factor ids loss =>
    exact h.matches_of_lt fun id hid => Nat.not_le.1 fun hle => hreads ⟨id, hid, hle⟩

/-- What was added within a consistent list was possible. -/
theorem Consistent.possible (h : Consistent (as ++ a :: more)) : a.Possible (fields as) := by
  have hfields : fields (as ++ a :: more) = fields as ++ fields (a :: more) := fields_append as (a :: more)
  cases a with
  | param f =>
    have hcons : fields (.param f :: more) = f :: fields more := rfl
    have hnames := h.names
    rw [hfields, hcons, List.map_append, List.nodup_append'] at hnames
    have hf : f ∈ fields (as ++ .param f :: more) := by
      rw [hfields, hcons]
      exact List.mem_append_right _ List.mem_cons_self
    exact ⟨fun hmem => hnames.2.2 hmem (List.mem_map_of_mem List.mem_cons_self), h.admissible f hf⟩
  | residual factor ids loss =>
    have hmatches := h.slots factor ids loss (List.mem_append_right _ List.mem_cons_self)
    rw [hfields] at hmatches
    exact hmatches.completable

/-- A consistent list with more additions that fit it and each other. -/
theorem Consistent.append (h : Consistent as) (hnames : ((fields as ++ fields more).map (·.name)).Nodup)
    (hadmissible : ∀ f ∈ fields more, f.Admissible)
    (hslots : ∀ factor ids loss, .residual factor ids loss ∈ more →
      Matches (fields as ++ fields more) ids factor.layout) : Consistent (as ++ more) := by
  refine ⟨fields_append as more ▸ hnames, fun f hf => ?_, fun factor ids loss hmem => ?_⟩
  · rw [fields_append] at hf
    rcases List.mem_append.1 hf with hf | hf
    · exact h.admissible f hf
    · exact hadmissible f hf
  · rw [fields_append]
    rcases List.mem_append.1 hmem with hmem | hmem
    · exact (h.slots factor ids loss hmem).append _
    · exact hslots factor ids loss hmem

/-- One more addition to a consistent list. -/
theorem Consistent.concat_iff (h : Consistent as) : Consistent (as ++ [a]) ↔ a.Fits (fields as) := by
  cases a with
  | param f =>
    refine ⟨fun hconcat => hconcat.possible, fun hfits => ?_⟩
    obtain ⟨hfresh, hadmissible⟩ := hfits
    refine h.append ?_ (fun g hg => ?_) fun factor ids loss hmem => ?_
    · rw [List.map_append]
      exact h.names.append (List.nodup_singleton _) (List.disjoint_singleton.2 hfresh)
    · exact List.mem_singleton.1 hg ▸ hadmissible
    · cases List.mem_singleton.1 hmem
  | residual factor ids loss =>
    have hfields : fields as ++ fields [.residual factor ids loss] = fields as := List.append_nil _
    constructor
    · intro hconcat
      have hmatches := hconcat.slots factor ids loss (List.mem_append_right _ List.mem_cons_self)
      rwa [fields_append, hfields] at hmatches
    · intro hfits
      refine h.append (hfields.symm ▸ h.names) (fun g hg => by cases hg) fun factor' ids' loss' hmem => ?_
      cases List.mem_singleton.1 hmem
      exact hfits.append _

/-- What is possible after a consistent list is part of a longer one. -/
theorem Consistent.exists_extension_iff (h : Consistent as) :
    (∃ more, Consistent (as ++ a :: more)) ↔ a.Possible (fields as) := by
  refine ⟨fun ⟨more, hmore⟩ => hmore.possible, fun hpossible => ?_⟩
  cases a with
  | param f => exact ⟨[], h.concat_iff.2 hpossible⟩
  | residual factor ids loss =>
    obtain ⟨gs, hnames, hadmissible, hmatches⟩ := hpossible.exists_matches h.names
    have hfields : fields (.residual factor ids loss :: gs.map .param) = gs := by
      show fields (gs.map .param) = gs
      rw [fields, List.filterMap_map]
      exact List.filterMap_some
    refine ⟨gs.map .param, h.append (hfields.symm ▸ hnames) (hfields.symm ▸ hadmissible) ?_⟩
    intro factor' ids' loss' hmem
    rw [hfields]
    rcases List.mem_cons.1 hmem with heq | hmem
    · cases heq
      exact hmatches
    · obtain ⟨f, -, hf⟩ := List.mem_map.1 hmem
      cases hf

end Addition

/-! ## Faults -/

namespace Problem

/-- Ids are never what is wrong with a built problem. -/
theorem validate_build_ne_idMismatch (position id : Nat) :
    (build as).validate ≠ .error (.idMismatch position id) := by
  intro h
  cases validate_eq_error.1 h with
  | block hb _ hfault =>
    cases hfault with
    | id hid =>
      obtain ⟨f, -, rfl⟩ := getElem?_params_build_eq_some.1 hb
      exact hid rfl
  | residual _ _ _ hfault => cases hfault

/-- Nor are the lengths of its residuals. -/
theorem validate_build_ne_residualDim (position dim expected : Nat) :
    (build as).validate ≠ .error (.residualDim position dim expected) := by
  intro h
  cases validate_eq_error.1 h with
  | block _ _ hfault => cases hfault
  | residual _ hr _ hfault =>
    cases hfault with
    | dim hdim =>
      obtain ⟨factor, ids, loss, -, rfl⟩ := exists_residual_of_build (List.mem_of_getElem? hr)
      exact hdim rfl

/-- Whatever else than a missing block is wrong stays wrong. -/
theorem eq_missingParam_of_consistent {e : ValidationError α} (h : (build as).validate = .error e)
    (hmore : Addition.Consistent (as ++ more)) : ∃ position id, e = .missingParam position id := by
  have hfields := Addition.fields_append as more
  cases validate_eq_error.1 h with
  | @block i b _ hb _ hfault =>
    -- a block that was added is as good as it will be
    obtain ⟨f, hf, rfl⟩ := getElem?_params_build_eq_some.1 hb
    have hname : (f.block i).name ∉ (build as).namesBefore i := by
      have hnodup := hmore.names
      rw [hfields, List.map_append, List.nodup_append', ← map_name_params_build] at hnodup
      rw [namesBefore, List.map_take]
      exact nodup_iff_not_mem_take.1 hnodup.1 i _ (by rw [List.getElem?_map, hb]; rfl)
    have hadmissible := hmore.admissible f (hfields ▸ List.mem_append_left _ (List.mem_of_getElem? hf))
    have hcheck : (f.block i).check i ((build as).namesBefore i) = .ok () :=
      ParamBlock.check_eq_ok.2 ⟨rfl, hname, BlockFields.wellFormed_block.2 hadmissible⟩
    cases hcheck.symm.trans (ParamBlock.check_eq_error.2 hfault)
  | residual _ hr _ hfault =>
    obtain ⟨factor, ids, loss, ha, rfl⟩ := exists_residual_of_build (List.mem_of_getElem? hr)
    have hcompletable : Completable (Addition.fields as) ids factor.layout :=
      (hfields ▸ hmore.slots factor ids loss (List.mem_append_left _ ha)).completable
    cases hfault with
    | dim hdim => exact absurd rfl hdim
    | count _ hcount => exact absurd hcompletable.count hcount
    | missing => exact ⟨_, _, rfl⟩
    | @mismatch _ _ n id slot b hn hslot _ hb hfills =>
      obtain ⟨f, hf, rfl⟩ := getElem?_params_build_eq_some.1 hb
      have hzip : (ids.zip factor.layout)[n]? = some (id, slot) := List.getElem?_zip_eq_some.2 ⟨hn, hslot⟩
      exact absurd (hcompletable.present id slot f (List.mem_of_getElem? hzip) hf) hfills

/-- Blocks have their positions as ids and keep their fields; a name is found at its first block, now and later; a built
problem is valid exactly if its additions are consistent, and ids and the lengths of residuals are never what is wrong
with it. Whatever else is wrong stays wrong, except for missing blocks. Of a valid problem, exactly the additions that
fit keep it valid, and the others make it and all that follow invalid, unless they are residuals that refer to missing
blocks and that may be completed. -/
theorem build_stepwise (as : List (Addition α)) :
    (∀ k (f : BlockFields α), (Addition.fields as)[k]? = some f → ∀ more,
        (build (as ++ more)).params[k]? = some (f.block k)) ∧
      (build as).params.length = (Addition.fields as).length ∧
      (∀ name k, (build as).paramByName? name = some k ↔ (∃ f, (Addition.fields as)[k]? = some f ∧ f.name = name) ∧
        ∀ j (f : BlockFields α), j < k → (Addition.fields as)[j]? = some f → f.name ≠ name) ∧
      (∀ name k more, (build as).paramByName? name = some k → (build (as ++ more)).paramByName? name = some k) ∧
      ((build as).validate = .ok () ↔ Addition.Consistent as) ∧
      (∀ e, (build as).validate = .error e → (∀ position id, e ≠ .idMismatch position id) ∧
        (∀ position dim expected, e ≠ .residualDim position dim expected) ∧
        ((∀ position id, e ≠ .missingParam position id) → ∀ more, (build (as ++ more)).validate ≠ .ok ())) ∧
      ((build as).validate = .ok () → ∀ a,
        ((build (as ++ [a])).validate = .ok () ↔ a.Fits (Addition.fields as)) ∧
        (¬a.Fits (Addition.fields as) → ¬a.ReadsMissing (Addition.fields as) →
          ∀ more, (build (as ++ a :: more)).validate ≠ .ok ()) ∧
        ((∃ more, (build (as ++ a :: more)).validate = .ok ()) ↔ a.Possible (Addition.fields as))) := by
  refine ⟨fun k f hf more => ?_, ?_, fun name k => paramByName?_build_eq_some,
    fun name k more h => paramByName?_build_append h more, validate_build, fun e he => ⟨?_, ?_, ?_⟩,
    fun h a => ⟨?_, ?_, ?_⟩⟩
  · have hlt := (List.getElem?_eq_some_iff.1 hf).1
    refine getElem?_params_build_eq_some.2 ⟨f, ?_, rfl⟩
    rw [Addition.fields_append, List.getElem?_append_left hlt, hf]
  · rw [params_build, List.length_mapIdx]
  · rintro position id rfl
    exact validate_build_ne_idMismatch position id he
  · rintro position dim expected rfl
    exact validate_build_ne_residualDim position dim expected he
  · intro hmissing more hmore
    obtain ⟨position, id, rfl⟩ := eq_missingParam_of_consistent he (validate_build.1 hmore)
    exact hmissing position id rfl
  · exact validate_build.trans (validate_build.1 h).concat_iff
  · intro hfits hreads more hmore
    exact hfits ((validate_build.1 hmore).possible.fits hreads)
  · simp only [validate_build]
    exact (validate_build.1 h).exists_extension_iff

/-- A point that additions may refer to. -/
def lonePoint : List (Addition Float) := [.param ⟨"point", 3, .euclidean, .free, none⟩]

/-- A view of a point by a camera of four parameters. -/
def viewOf (point camera : Nat) : Addition Float := .residual (.fixedPose .pinhole .one ⟨0, 0⟩) [point, camera] .none

/-- A view by a camera that is not there yet is not valid and may become so. A view in which one missing block is both
the point and the camera never is. -/
theorem build_stepwise_lonePoint :
    (build lonePoint).validate = .ok () ∧ (build (lonePoint ++ [viewOf 0 1])).validate ≠ .ok () ∧
      (∃ more, (build (lonePoint ++ viewOf 0 1 :: more)).validate = .ok ()) ∧
      ∀ more, (build (lonePoint ++ viewOf 1 1 :: more)).validate ≠ .ok () := by
  obtain ⟨-, -, -, -, -, -, hvalid⟩ := build_stepwise lonePoint
  have hpoint : (build lonePoint).validate = .ok () := rfl
  obtain ⟨hfits, -, hpossible⟩ := hvalid hpoint (viewOf 0 1)
  obtain ⟨-, -, hpossible'⟩ := hvalid hpoint (viewOf 1 1)
  refine ⟨hpoint, fun h => ?_, hpossible.2 ⟨rfl, ?_, ?_⟩, fun more h => ?_⟩
  · obtain ⟨f, hf, -⟩ := List.forall₂_zip (hfits.1 h) (List.mem_of_getElem? (i := 1) rfl)
    cases hf
  · intro id slot f hmem hf
    rcases List.mem_cons.1 hmem with heq | hmem
    · cases heq
      exact Option.some.inj hf ▸ ⟨rfl, rfl⟩
    · cases List.mem_singleton.1 hmem
      cases hf
  · intro id slot slot' hmem hmem'
    rcases List.mem_cons.1 hmem with heq | hmem <;> rcases List.mem_cons.1 hmem' with heq' | hmem'
    · cases heq; cases heq'; exact ⟨rfl, rfl⟩
    · cases heq; cases List.mem_singleton.1 hmem'
    · cases List.mem_singleton.1 hmem; cases heq'
    · cases List.mem_singleton.1 hmem; cases List.mem_singleton.1 hmem'; exact ⟨rfl, rfl⟩
  · have hagree := (hpossible'.1 ⟨more, h⟩).agree 1 _ _ (List.mem_of_getElem? (i := 0) rfl)
      (List.mem_of_getElem? (i := 1) rfl)
    exact absurd hagree.1 (by decide)

end Problem

end Validity

end MultiView
