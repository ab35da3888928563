import Mathlib.Tactic.Simproc.ExistsAndEq
import MultiView.Config.Options
import MultiView.Proofs.Json.Fields

/-!
# Configurations that say only part of the options

An object with options may leave out any fields and have any others, in any order: what it says overwrites the defaults
(`configuration_partial`, from `ReadsPartially` for each of the four types of options). The members of a loss may stand
in any order too, with its kind at any place (`RobustLoss.ofJson?_perm`).
-/

namespace MultiView

open Json

variable {α : Type}

/-! ## Losses -/

section Losses

variable {members members' : List (String × Json α)}

theorem Json.areReadableMembers_eq (members : List (String × Json α)) :
    areReadableMembers members = members.all fun m => isReadable m.2 := by
  induction members with
  | nil => rfl
  | cons m members ih => rw [List.all_cons, ← ih, areReadableMembers]

theorem Json.isReadable_perm (hperm : members.Perm members') :
    (obj members).isReadable = (obj members').isReadable := by
  rw [isReadable, isReadable, areReadableMembers_eq, areReadableMembers_eq, hperm.all_eq]

/-- The kind of a loss is found at any place. -/
theorem RobustLoss.kind?_perm (hperm : members.Perm members') :
    kind? (.obj members) = Option.none ∧ kind? (.obj members') = Option.none ∨
      ∃ kind, kind? (.obj members) = some (kind, .obj (members.filter (·.1 != "kind"))) ∧
        kind? (.obj members') = some (kind, .obj (members'.filter (·.1 != "kind"))) := by
  have hkinds : (members.filter (·.1 == "kind")).Perm (members'.filter (·.1 == "kind")) := hperm.filter _
  rw [kind?, kind?]
  generalize members.filter (·.1 == "kind") = kinds at hkinds
  generalize members'.filter (·.1 == "kind") = kinds' at hkinds
  -- a loss has a kind if just one member gives it, and a single member has no other order
  match kinds, kinds', hkinds with
  | [], _, hkinds =>
    obtain rfl := hkinds.nil_eq
    exact .inl ⟨rfl, rfl⟩
  | [(_, j)], _, hkinds =>
    obtain rfl := List.singleton_perm.1 hkinds
    cases j with
    | str kind => exact .inr ⟨kind, rfl, rfl⟩
    | _ => exact .inl ⟨rfl, rfl⟩
  | _ :: _ :: _, [], hkinds => cases hkinds.length_eq
  | _ :: _ :: _, [_], hkinds => cases hkinds.length_eq
  | _ :: _ :: _, _ :: _ :: _, _ => simp

variable [Scalar α]

theorem RobustLoss.scaled_eq (h : Distinct members) (make : α → RobustLoss α) :
    (do
      let fields ← (obj members).record? ["scale"]
      make <$> required fields "scale" scalar?) = make <$> (members.lookup "scale").bind scalar? := by
  obtain ⟨present, hpresent, hlookup⟩ := record?_of_distinct ["scale"] h
  rw [hpresent, ← hlookup "scale" List.mem_cons_self]
  rfl

theorem RobustLoss.ofKind?_perm (h : Distinct members) (hperm : members.Perm members') (kind : String) :
    ofKind? kind (.obj members) = ofKind? kind (.obj members') := by
  simp only [ofKind?, scaled_eq h, scaled_eq (h.perm hperm), lookup_perm hperm h]

theorem RobustLoss.ofJson?_perm (h : Distinct members) (hperm : members.Perm members') :
    ofJson? (.obj members) = ofJson? (.obj members') := by
  obtain ⟨hnone, hnone'⟩ | ⟨kind, hkind, hkind'⟩ := kind?_perm hperm
  · rw [ofJson?, ofJson?, hnone, hnone']
  · have hrest := hperm.filter (·.1 != "kind")
    simp only [ofJson?, hkind, hkind', Option.bind_eq_bind, Option.bind_some, isReadable_perm hrest,
      ofKind?_perm (h.filter _) hrest]

end Losses

/-! ## Fields of options -/

def Refinement.fields : List (Field α Refinement) :=
  [⟨"refine_focal_length", bool?, (·.focal)⟩, ⟨"refine_principal_point", bool?, (·.principal)⟩,
    ⟨"refine_extra_params", bool?, (·.extra)⟩]

variable [Scalar α]

def SolveOptions.fields : List (Field α (SolveOptions α)) :=
  [⟨"max_iters", nat?, (·.maxIters)⟩, ⟨"verbosity", nat?, (·.verbosity)⟩,
    ⟨"linear_solver", nullable? fun j => j.choice?.bind LinearSolver.ofName?, (·.linearSolver)⟩,
    ⟨"min_abs_decrease", nullable? scalar?, (·.minAbsDecrease)⟩,
    ⟨"min_rel_decrease", nullable? scalar?, (·.minRelDecrease)⟩, ⟨"min_error", nullable? scalar?, (·.minError)⟩]

def BundleOptions.fields : List (Field α (BundleOptions α)) :=
  [⟨"robust_loss", RobustLoss.ofJson?, (·.loss)⟩] ++ Refinement.fields.map (.within (·.refine)) ++
    [⟨"constant_poses", list? nat?, (·.constantPoses)⟩, ⟨"constant_points", list? nat?, (·.constantPoints)⟩,
      ⟨"min_track_length", nat?, (·.minTrackLength)⟩]

def RigOptions.fields : List (Field α (RigOptions α)) :=
  [⟨"robust_loss", RobustLoss.ofJson?, (·.loss)⟩] ++ Refinement.fields.map (.within (·.refine)) ++
    [⟨"refine_relative_poses", bool?, (·.refineRelativePoses)⟩,
      ⟨"constant_rig_poses", list? nat?, (·.constantRigPoses)⟩,
      ⟨"constant_points", list? nat?, (·.constantPoints)⟩, ⟨"min_track_length", nat?, (·.minTrackLength)⟩]

def RelativePoseOptions.fields : List (Field α (RelativePoseOptions α)) :=
  [⟨"robust_loss", RobustLoss.ofJson?, (·.loss)⟩]

theorem SolveOptions.readsPartially : ReadsPartially ofJson? fields (.default : SolveOptions α) := by
  refine .of_body (fun _ => rfl) (fun present h => ?_) fun present o => ?_
  · simpa [fields, exists_withDefault, Option.bind_eq_some_iff] using h
  · cases o
    simp [fields, Option.bind_eq_some_iff]

omit [Scalar α] in
/-- The switches are fields of the options that they stand in. -/
theorem Refinement.ofMembers?_eq_some {present : List (String × Json α)} {d r : Refinement} :
    ofMembers? present d = some r ↔ Overwrites fields present d r := by
  cases r
  simp [ofMembers?, fields, Option.bind_eq_some_iff, -Bool.exists_bool]

omit [Scalar α] in
theorem Refinement.exists_ofMembers? {present : List (String × Json α)} {d : Refinement} :
    (∃ r, ofMembers? present d = some r) ↔ Accepted fields present := by
  simp [ofMembers?, fields, exists_withDefault, Option.bind_eq_some_iff, -Bool.exists_bool]

theorem BundleOptions.readsPartially : ReadsPartially ofJson? fields (.default : BundleOptions α) := by
  refine .of_body (fun _ => rfl) (fun present h => ?_) fun present o => ?_
  · simpa [fields, Refinement.exists_ofMembers?, exists_withDefault, Option.bind_eq_some_iff] using h
  · cases o
    simp [fields, Refinement.ofMembers?_eq_some, Option.bind_eq_some_iff]

theorem RigOptions.readsPartially : ReadsPartially ofJson? fields (.default : RigOptions α) := by
  refine .of_body (fun _ => rfl) (fun present h => ?_) fun present o => ?_
  · simpa [fields, Refinement.exists_ofMembers?, exists_withDefault, Option.bind_eq_some_iff, -Bool.exists_bool]
      using h
  · cases o
    simp [fields, Refinement.ofMembers?_eq_some, Option.bind_eq_some_iff, -Bool.exists_bool]

theorem RelativePoseOptions.readsPartially : ReadsPartially ofJson? fields (.default : RelativePoseOptions α) := by
  refine .of_body (fun _ => rfl) (fun present h => ?_) fun present o => ?_
  · simpa [fields, exists_withDefault, Option.bind_eq_some_iff] using h
  · cases o
    simp [fields, Option.bind_eq_some_iff]

/-! ## Configurations -/

/-- What an object says overwrites the defaults of its options, and nothing else about it counts. Nor does the order of
the members of a loss. -/
theorem configuration_partial :
    ReadsPartially SolveOptions.ofJson? SolveOptions.fields (.default : SolveOptions α) ∧
    ReadsPartially BundleOptions.ofJson? BundleOptions.fields (.default : BundleOptions α) ∧
    ReadsPartially RigOptions.ofJson? RigOptions.fields (.default : RigOptions α) ∧
    ReadsPartially RelativePoseOptions.ofJson? RelativePoseOptions.fields (.default : RelativePoseOptions α) ∧
    ∀ members members' : List (String × Json α), Distinct members → members.Perm members' →
      RobustLoss.ofJson? (.obj members) = RobustLoss.ofJson? (.obj members') :=
  ⟨SolveOptions.readsPartially, BundleOptions.readsPartially, RigOptions.readsPartially,
    RelativePoseOptions.readsPartially, fun _ _ => RobustLoss.ofJson?_perm⟩

/-- Options of which one is opened and one is changed, beside a remark. -/
def SolveOptions.remarked : List (String × Json Float) :=
  [("min_error", .null), ("remark", .str "quick"), ("max_iters", .nat 7)]

/-- A loss whose kind comes last. -/
def RobustLoss.backward : List (String × Json Float) := [("scale", .nat 2), ("kind", .str "huber")]

theorem configuration_partial_remarked :
    Distinct SolveOptions.remarked ∧ Distinct RobustLoss.backward ∧
    SolveOptions.ofJson? (.obj SolveOptions.remarked) =
      some { SolveOptions.default with maxIters := 7, minError := none } ∧
    SolveOptions.ofJson? (.obj SolveOptions.remarked) = SolveOptions.ofJson? (.obj SolveOptions.remarked.reverse) ∧
    RobustLoss.ofJson? (.obj RobustLoss.backward) = RobustLoss.ofJson? (.obj RobustLoss.backward.reverse) := by
  obtain ⟨hsolve, -, -, -, hloss⟩ := @configuration_partial Float _
  have hremarked : Distinct SolveOptions.remarked := by simp [Distinct, SolveOptions.remarked]
  have hbackward : Distinct RobustLoss.backward := by simp [Distinct, RobustLoss.backward]
  refine ⟨hremarked, hbackward, (hsolve.overwrites _ _ hremarked).2 ?_,
    hsolve.reorders _ _ hremarked (List.reverse_perm _).symm, hloss _ _ hbackward (List.reverse_perm _).symm⟩
  simp only [SolveOptions.fields, overwrites_cons]
  exact ⟨rfl, rfl, rfl, rfl, rfl, rfl, overwrites_nil⟩

end MultiView
