import MultiView.Proofs.Problem.WellFormed
import MultiView.Proofs.Reconstruction.Draft

/-!
# Drafts of any dataset

A dataset that was not validated may have a formulation too. Whatever a draft is made of, each of its residual blocks is
that of a measurement of a plan, and the ids that it reads are of the blocks of the measurement's keys
(`Draft.Planned`). Operations that succeed keep this, and no block goes away (`Draft.Grows`); so a computation is
followed step by step, with what is known of its answers (`Drafting.Follows`). A formulation is that of a planned draft,
and is well formed (`Draft.planned_finish`).
-/

namespace MultiView

variable {κ α τ υ : Type}

/-! ## Computations that read only -/

namespace Drafting

def Reading (m : Drafting κ α τ) : Prop := ∀ s x t, m.run s = .ok (x, t) → t = s

theorem reading_pure (x : τ) : Reading (pure x : Drafting κ α τ) := by
  intro s y t hrun
  obtain ⟨-, rfl⟩ : x = y ∧ s = t := by simpa using hrun
  rfl

theorem Reading.bind {m : Drafting κ α τ} (hm : Reading m) {f : τ → Drafting κ α υ} (hf : ∀ x, Reading (f x)) :
    Reading (m >>= f) := by
  intro s y u hrun
  rw [StateT.run_bind, bind_eq_ok] at hrun
  obtain ⟨⟨x, t⟩, hx, hy⟩ := hrun
  exact (hf x t y u hy).trans (hm s x t hx)

theorem item_eq_ok {xs : List τ} {i : Nat} {x : τ} {s t : Draft κ α} :
    (item xs i).run s = .ok (x, t) ↔ xs[i]? = some x ∧ s = t := by
  cases hx : xs[i]? <;> simp [item, hx, orFail]

theorem reading_isUsable (asked : Nat) (tracks : List Nat) (o : Observation α) :
    Reading (isUsable asked tracks o : Drafting κ α Bool) :=
  Reading.bind (fun _ _ _ hrun => (item_eq_ok.1 hrun).2.symm) fun _ => reading_pure _

variable {test : τ → Drafting κ α Bool} {xs : List τ}

theorem reading_filterAuxM (h : ∀ x ∈ xs, Reading (test x)) (acc : List τ) : Reading (xs.filterAuxM test acc) := by
  induction xs generalizing acc with
  | nil => exact reading_pure _
  | cons x xs ih =>
    have hxs := fun acc => ih (fun y hy => h y (List.mem_cons_of_mem x hy)) acc
    exact (h x List.mem_cons_self).bind fun b => hxs _

theorem reading_filterM (h : ∀ x ∈ xs, Reading (test x)) : Reading (xs.filterM test) :=
  (reading_filterAuxM h []).bind fun _ => reading_pure _

theorem reading_anyM (h : ∀ x ∈ xs, Reading (test x)) : Reading (xs.anyM test) := by
  induction xs with
  | nil => exact reading_pure _
  | cons x xs ih =>
    have hxs := ih fun y hy => h y (List.mem_cons_of_mem x hy)
    refine (h x List.mem_cons_self).bind fun b => ?_
    cases b with
    | false => exact hxs
    | true => exact reading_pure _

end Drafting

/-! ## Plans -/

variable [BlockKey κ]

/-- Is the block of an id that of a key? -/
def Problem.IsBlockOf (p : Problem α) (id : Nat) (k : κ) : Prop :=
  ∃ b, p.params[id]? = some b ∧ b.name = BlockKey.name k

/-- Is a residual block that of a measurement? -/
structure ResidualBlock.IsOf (r : ResidualBlock α) (p : Problem α) (m : Measurement κ α) : Prop where
  factor : r.factor = m.factor
  reads : List.Forall₂ p.IsBlockOf r.params m.reads

/-- Are all residual blocks of a problem those of measurements of a plan? -/
def Problem.Planned (plan : Measurement κ α → Prop) (p : Problem α) : Prop :=
  ∀ r ∈ p.residuals, ∃ m, plan m ∧ r.IsOf p m

section Extend

variable {p p' : Problem α}

theorem Problem.IsBlockOf.extend {id : Nat} {k : κ} (h : p.IsBlockOf id k) (hext : p.params <+: p'.params) :
    p'.IsBlockOf id k := by
  obtain ⟨b, hb, hname⟩ := h
  obtain ⟨more, hmore⟩ := hext
  have hlt : id < p.params.length := (List.getElem?_eq_some_iff.1 hb).1
  exact ⟨b, by rw [← hmore, List.getElem?_append_left hlt, hb], hname⟩

theorem ResidualBlock.IsOf.extend {r : ResidualBlock α} {m : Measurement κ α} (h : r.IsOf p m)
    (hext : p.params <+: p'.params) : r.IsOf p' m :=
  ⟨h.factor, h.reads.imp fun _ _ hk => hk.extend hext⟩

end Extend

variable [DecidableEq κ] {plan : Measurement κ α → Prop}

/-- A draft whose residual blocks are those of measurements, and whose table has the right ids. -/
structure Draft.Planned (plan : Measurement κ α → Prop) (s : Draft κ α) : Prop where
  problem : s.problem.Planned plan
  shared : ∀ k id, s.shared.get? k = some id → s.problem.IsBlockOf id k

theorem Draft.planned_empty : (Draft.empty : Draft κ α).Planned plan where
  problem _ hr := nomatch hr
  shared _ _ hid := nomatch hid

/-- A draft becomes a planned one with more blocks. -/
structure Draft.Grows (plan : Measurement κ α → Prop) (s t : Draft κ α) : Prop where
  planned : t.Planned plan
  params : s.problem.params <+: t.problem.params

variable {s t u : Draft κ α}

theorem Draft.Planned.grows (h : s.Planned plan) : s.Grows plan s := ⟨h, List.prefix_refl _⟩

theorem Draft.Grows.trans (h : s.Grows plan t) (h' : t.Grows plan u) : s.Grows plan u :=
  ⟨h'.planned, h.params.trans h'.params⟩

/-- A formulation is well formed and has the residual blocks of its draft. -/
theorem Draft.planned_finish [Scalar α] (h : s.Planned plan) {asked : Nat} {f : Formulation α}
    (hf : s.finish asked = .ok f) : f.problem.WellFormed ∧ f.problem.Planned plan := by
  simp only [finish, bind_eq_ok, exists_unit, require_eq_ok, mapError_eq_ok, Problem.validate_eq_ok, pure_eq_ok] at hf
  obtain ⟨-, hwf, rfl⟩ := hf
  exact ⟨hwf, h.problem⟩

/-! ## Following computations -/

namespace Drafting

variable {m : Drafting κ α τ} {post : τ → Problem α → Prop}

/-- If a computation succeeds, the draft grows, and the answer is as it should be. -/
def Follows (plan : Measurement κ α → Prop) (m : Drafting κ α τ) (s : Draft κ α) (post : τ → Problem α → Prop) :
    Prop :=
  ∀ x t, m.run s = .ok (x, t) → s.Grows plan t ∧ post x t.problem

theorem follows_pure (hs : s.Planned plan) {x : τ} (hpost : post x s.problem) : Follows plan (pure x) s post := by
  intro y t hrun
  obtain ⟨rfl, rfl⟩ : x = y ∧ s = t := by simpa using hrun
  exact ⟨hs.grows, hpost⟩

theorem Follows.bind (hm : Follows plan m s post) {f : τ → Drafting κ α υ} {post' : υ → Problem α → Prop}
    (hf : ∀ x t, s.Grows plan t → post x t.problem → Follows plan (f x) t post') :
    Follows plan (m >>= f) s post' := by
  intro y u hrun
  rw [StateT.run_bind, bind_eq_ok] at hrun
  obtain ⟨⟨x, t⟩, hx, hy⟩ := hrun
  obtain ⟨hgrows, hpost⟩ := hm x t hx
  obtain ⟨hgrows', hpost'⟩ := hf x t hgrows hpost y u hy
  exact ⟨hgrows.trans hgrows', hpost'⟩

theorem Reading.follows (hm : Reading m) (hs : s.Planned plan) : Follows plan m s fun _ _ => True := by
  intro x t hrun
  rw [hm s x t hrun]
  exact ⟨hs.grows, trivial⟩

theorem follows_item (hs : s.Planned plan) {xs : List τ} {i : Nat} :
    Follows plan (item xs i) s fun x _ => xs[i]? = some x := by
  intro x t hrun
  obtain ⟨hx, rfl⟩ := item_eq_ok.1 hrun
  exact ⟨hs.grows, hx⟩

/-- A loop grows a draft if its rounds do. -/
theorem follows_forM {body : τ → Drafting κ α Unit} {xs : List τ} (hs : s.Planned plan)
    (hbody : ∀ x ∈ xs, ∀ t, s.Grows plan t → Follows plan (body x) t fun _ _ => True) :
    Follows plan (xs.forM body) s fun _ _ => True := by
  induction xs generalizing s with
  | nil => exact follows_pure hs trivial
  | cons x xs ih =>
    refine (hbody x List.mem_cons_self s hs.grows).bind fun _ t hgrows _ => ih hgrows.planned ?_
    exact fun y hy u hgrows' => hbody y (List.mem_cons_of_mem x hy) u (hgrows.trans hgrows')

/-! ## Operations -/

theorem follows_addResidual (hs : s.Planned plan) {m : Measurement κ α} (hm : plan m) {ids : List Nat}
    (hids : List.Forall₂ s.problem.IsBlockOf ids m.reads) (loss : RobustLoss α) :
    Follows plan (addResidual m.factor ids loss) s fun _ _ => True := by
  intro _ t hrun
  obtain rfl : _ = t := by simpa [addResidual] using hrun
  refine ⟨⟨⟨fun r hr => ?_, hs.shared⟩, List.prefix_refl _⟩, trivial⟩
  rcases List.mem_append.1 hr with hold | hnew
  · obtain ⟨m', hm', hr'⟩ := hs.problem r hold
    exact ⟨m', hm', hr'.extend (List.prefix_refl _)⟩
  · rw [List.mem_singleton.1 hnew]
    exact ⟨m, hm, rfl, hids⟩

theorem follows_add (hs : s.Planned plan) (k : κ) (spec : BlockSpec α) :
    Follows plan (add k spec) s fun id p => p.IsBlockOf id k := by
  intro id t hrun
  obtain ⟨rfl, rfl⟩ : s.problem.params.length = id ∧ _ = t := by simpa [add] using hrun
  have hext : s.problem.params <+: (s.problem.addParam (BlockKey.name k) spec.value.length spec.manifold spec.fixed
      none).params := List.prefix_append _ _
  have hblock : (s.problem.addParam (BlockKey.name k) spec.value.length spec.manifold spec.fixed none).IsBlockOf
      s.problem.params.length k := ⟨_, List.getElem?_concat_length, rfl⟩
  refine ⟨⟨⟨fun r hr => ?_, fun j id hid => (hs.shared j id hid).extend hext⟩, hext⟩, hblock⟩
  obtain ⟨m, hm, hr⟩ := hs.problem r hr
  exact ⟨m, hm, hr.extend hext⟩

/-- The table gets a right id. -/
theorem follows_remember (hs : s.Planned plan) {k : κ} {id : Nat} (hid : s.problem.IsBlockOf id k) :
    Follows plan (modify fun s : Draft κ α => { s with shared := s.shared.insert k id }) s
      fun _ p => p.IsBlockOf id k := by
  intro _ t hrun
  obtain rfl : _ = t := by simpa using hrun
  refine ⟨⟨⟨hs.problem, fun j i hj => ?_⟩, List.prefix_refl _⟩, hid⟩
  rw [Assoc.get?_insert] at hj
  split at hj
  · next hjk =>
    obtain rfl := Option.some.inj hj
    exact hjk ▸ hid
  · exact hs.shared j i hj

theorem follows_share (hs : s.Planned plan) (k : κ) {spec : Drafting κ α (BlockSpec α)} (hspec : Reading spec) :
    Follows plan (share k spec) s fun id p => p.IsBlockOf id k := by
  intro id t hrun
  simp only [share, StateT.run_bind, StateT.run_get, pure_bind] at hrun
  cases htable : s.shared.get? k with
  | some i =>
    have hknown : Follows plan (pure i) s fun id p => p.IsBlockOf id k := follows_pure hs (hs.shared k i htable)
    rw [htable] at hrun
    exact hknown id t hrun
  | none =>
    have hnew : Follows plan (do
        let id ← add k (← spec)
        modify fun s => { s with shared := s.shared.insert k id }
        return id) s fun id p => p.IsBlockOf id k := by
      refine (hspec.follows hs).bind fun b u hu _ => (follows_add hu.planned k b).bind fun id v hv hid => ?_
      exact (follows_remember hv.planned hid).bind fun _ w hw hid => follows_pure hw.planned hid
    rw [htable] at hrun
    exact hnew id t hrun

theorem follows_sharePoint (hs : s.Planned plan) (k : κ) (constant : Bool) (points : List (Vec3 α)) (i : Nat) :
    Follows plan (sharePoint k constant points i) s fun id p => p.IsBlockOf id k :=
  follows_share hs k (Reading.bind (fun _ _ _ hrun => (item_eq_ok.1 hrun).2.symm) fun _ => reading_pure _)

/-- Two blocks, one after the other. -/
theorem follows_pair {first second : Drafting κ α Nat} {j k : κ}
    (hfirst : Follows plan first s fun id p => p.IsBlockOf id j)
    (hsecond : ∀ t, s.Grows plan t → Follows plan second t fun id p => p.IsBlockOf id k) :
    Follows plan (do return (← first, ← second)) s fun ids p => p.IsBlockOf ids.1 j ∧ p.IsBlockOf ids.2 k := by
  refine hfirst.bind fun id t ht hid => (hsecond t ht).bind fun id' u hu hid' => ?_
  exact follows_pure hu.planned ⟨hid.extend hu.params, hid'⟩

theorem follows_addPose (hs : s.Planned plan) (rotation trans : κ) (constant : Bool) (pose : Pose α) :
    Follows plan (addPose rotation trans constant pose) s
      fun ids p => p.IsBlockOf ids.1 rotation ∧ p.IsBlockOf ids.2 trans :=
  follows_pair (follows_add hs rotation _) fun _ ht => follows_add ht.planned trans _

theorem follows_sharePose (hs : s.Planned plan) (rotation trans : κ) (constant : Bool) (pose : Pose α) :
    Follows plan (sharePose rotation trans constant pose) s
      fun ids p => p.IsBlockOf ids.1 rotation ∧ p.IsBlockOf ids.2 trans :=
  follows_pair (follows_share hs rotation (reading_pure _)) fun _ ht => follows_share ht.planned trans (reading_pure _)

end Drafting

end MultiView
