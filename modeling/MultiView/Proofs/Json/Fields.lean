import MultiView.Proofs.Json.Record

/-!
# Records with defaults

A record with defaults is read from an object by its fields (`Field`): one that is present has the value that is read of
it, and one that is missing has the default's (`Overwrites`). So what is read depends neither on the order of the
members nor on those that are no fields, and what two objects say together is what the second says on top of the first
(`ReadsPartially.of_overwrites`).
-/

namespace MultiView.Json

variable {α σ τ : Type}

/-! ## Members with distinct names -/

/-- Do all members have different names? -/
def Distinct (members : List (String × Json α)) : Prop := (members.map (·.1)).Nodup

section Members

variable {members members' first second : List (String × Json α)} {name : String}

theorem Distinct.perm (h : Distinct members) (hperm : members.Perm members') : Distinct members' :=
  (hperm.map _).nodup_iff.1 h

theorem Distinct.filter (h : Distinct members) (p : String × Json α → Bool) : Distinct (members.filter p) :=
  h.sublist (List.filter_sublist.map _)

theorem Distinct.left (h : Distinct (first ++ second)) : Distinct first :=
  h.sublist ((List.sublist_append_left _ _).map _)

theorem lookup_eq_none (h : name ∉ members.map (·.1)) : members.lookup name = none :=
  List.lookup_eq_none_iff.2 fun _ hm => bne_iff_ne.2 fun hname => h (hname ▸ List.mem_map_of_mem hm)

theorem mem_names {j : Json α} (h : members.lookup name = some j) : name ∈ members.map (·.1) := by
  refine Decidable.not_not.1 fun hname => ?_
  rw [lookup_eq_none hname] at h
  cases h

theorem Distinct.lookup_left (h : Distinct (first ++ second)) {j : Json α} (hj : second.lookup name = some j) :
    first.lookup name = none := by
  rw [Distinct, List.map_append, List.nodup_append] at h
  exact lookup_eq_none fun hname => h.2.2 name hname name (mem_names hj) rfl

theorem lookup_perm (hperm : members.Perm members') (h : Distinct members) (name : String) :
    members.lookup name = members'.lookup name := by
  induction hperm with
  | nil => rfl
  | cons m _ ih => rw [Assoc.lookup_cons_ite, Assoc.lookup_cons_ite, ih (List.nodup_cons.1 h).2]
  | swap m n members =>
    obtain ⟨k, j⟩ := m
    obtain ⟨k', j'⟩ := n
    have hne : k' ≠ k := (List.nodup_cons.1 h).1 ∘ (· ▸ List.mem_cons_self)
    simp only [Assoc.lookup_cons_ite]
    by_cases hk : name = k
    · simp [hk, hne.symm]
    · simp [hk]
  | trans hperm _ ih ih' => rw [ih h, ih' (h.perm hperm)]

theorem lookup_filter {p : String → Bool} (hp : p name = true) (members : List (String × Json α)) :
    (members.filter fun m => p m.1).lookup name = members.lookup name := by
  induction members with
  | nil => rfl
  | cons m members ih =>
    obtain ⟨k, j⟩ := m
    rw [List.filter_cons, Assoc.lookup_cons_ite]
    split
    · rw [Assoc.lookup_cons_ite, ih]
    · next hk =>
      have hne : name ≠ k := fun hname => hk (hname ▸ hp)
      rw [ih, if_neg hne]

/-- A record has the fields that the object has as members. -/
theorem record?_of_distinct (names : List String) (h : Distinct members) : ∃ fields,
    record? names (obj members) = some fields ∧ ∀ name ∈ names, fields.lookup name = members.lookup name :=
  ⟨_, if_pos (h.filter _), fun _ hname => lookup_filter (List.contains_iff_mem.2 hname) members⟩

end Members

/-! ## Fields -/

/-- A field of a record: its name in objects, the reader of its values, and its value in a record. -/
structure Field (α σ : Type) where
  name : String
  {Value : Type}
  read : Json α → Option Value
  get : σ → Value

/-- A field of a part of a record. -/
def Field.within (part : σ → τ) (f : Field α τ) : Field α σ := ⟨f.name, f.read, fun o => f.get (part o)⟩

/-- Has a record in a field what members say, and what `base` has there where they say nothing? -/
def Field.Holds (f : Field α σ) (members : List (String × Json α)) (base o : σ) : Prop :=
  match members.lookup f.name with
  | some j => f.read j = some (f.get o)
  | none => f.get o = f.get base

/-- A record is `base`, overwritten by the fields that are present among members and by nothing else. -/
def Overwrites (fields : List (Field α σ)) (members : List (String × Json α)) (base o : σ) : Prop :=
  ∀ f ∈ fields, f.Holds members base o

/-- Has each field that is present a value that its reader accepts? -/
def Accepted (fields : List (Field α σ)) (members : List (String × Json α)) : Prop :=
  ∀ f ∈ fields, ∀ j, members.lookup f.name = some j → ∃ x, f.read j = some x

section Fields

variable {f : Field α σ} {fields : List (Field α σ)} {members members' first second : List (String × Json α)}
  {base o o₁ : σ}

theorem Field.holds_iff :
    f.Holds members base o ↔ withDefault members f.name (f.get base) f.read = some (f.get o) := by
  rw [Holds, withDefault]
  cases members.lookup f.name with
  | some j => rfl
  | none => rw [Option.some.injEq, eq_comm]

theorem exists_withDefault {name : String} {default : τ} {read : Json α → Option τ} :
    (∃ x, withDefault members name default read = some x) ↔
      ∀ j, members.lookup name = some j → ∃ x, read j = some x := by
  rw [withDefault]
  cases members.lookup name with
  | some j => simp
  | none => simp

/-! Lists of fields, one field after another. -/

@[simp] theorem overwrites_nil : Overwrites [] members base o := nofun

@[simp] theorem overwrites_cons : Overwrites (f :: fields) members base o ↔
    withDefault members f.name (f.get base) f.read = some (f.get o) ∧ Overwrites fields members base o := by
  rw [Overwrites, List.forall_mem_cons, Field.holds_iff]
  rfl

@[simp] theorem overwrites_append {fields' : List (Field α σ)} : Overwrites (fields ++ fields') members base o ↔
    Overwrites fields members base o ∧ Overwrites fields' members base o :=
  List.forall_mem_append

@[simp] theorem overwrites_within {parts : List (Field α τ)} {part : σ → τ} :
    Overwrites (parts.map (.within part)) members base o ↔ Overwrites parts members (part base) (part o) :=
  List.forall_mem_map

@[simp] theorem accepted_nil : Accepted ([] : List (Field α σ)) members := nofun

@[simp] theorem accepted_cons : Accepted (f :: fields) members ↔
    (∀ j, members.lookup f.name = some j → ∃ x, f.read j = some x) ∧ Accepted fields members :=
  List.forall_mem_cons

@[simp] theorem accepted_append {fields' : List (Field α σ)} :
    Accepted (fields ++ fields') members ↔ Accepted fields members ∧ Accepted fields' members :=
  List.forall_mem_append

@[simp] theorem accepted_within {parts : List (Field α τ)} {part : σ → τ} :
    Accepted (parts.map (.within part)) members ↔ Accepted parts members :=
  List.forall_mem_map

theorem Overwrites.accepted (h : Overwrites fields members base o) : Accepted fields members := by
  intro f hf j hj
  have hholds := h f hf
  rw [Field.Holds, hj] at hholds
  exact ⟨_, hholds⟩

theorem overwrites_congr (h : ∀ f ∈ fields, members.lookup f.name = members'.lookup f.name) :
    Overwrites fields members base o ↔ Overwrites fields members' base o :=
  forall₂_congr fun f hf => by rw [Field.Holds, Field.Holds, h f hf]

theorem accepted_congr (h : ∀ f ∈ fields, members.lookup f.name = members'.lookup f.name) :
    Accepted fields members ↔ Accepted fields members' :=
  forall₂_congr fun f hf => by rw [h f hf]

/-- What two lists of members say of a field together is what the second says on top of the first. -/
theorem Field.holds_append (h : Distinct (first ++ second)) (hfirst : f.Holds first base o₁) :
    f.Holds (first ++ second) base o ↔ f.Holds second o₁ o := by
  rw [Holds, Holds, List.lookup_append]
  rw [Holds] at hfirst
  cases hsecond : second.lookup f.name with
  | some j => rw [h.lookup_left hsecond, Option.none_or]
  | none =>
    -- where the second is silent, the value of `o` is to be that of `o₁`, which the first or the base has set
    rw [Option.or_none]
    split at hfirst
    · next j hj => rw [hfirst, Option.some.injEq, eq_comm]
    · next hnone => rw [hfirst]

theorem Accepted.left (h : Accepted fields (first ++ second)) : Accepted fields first := fun f hf j hj =>
  h f hf j (by rw [List.lookup_append, hj, Option.some_or])

end Fields

/-! ## Reading in part -/

/-- A record with defaults is read from objects that say anything in part: an object is read just if the fields that are
present are accepted; then the defaults are overwritten by these fields and by nothing else, whatever the order of the
members and whatever others there are. Two objects with different names are read together as the second one over the
first. -/
structure ReadsPartially (read : Json α → Option σ) (fields : List (Field α σ)) (default : σ) : Prop where
  succeeds : ∀ members, Distinct members → ((∃ o, read (.obj members) = some o) ↔ Accepted fields members)
  overwrites : ∀ members o, Distinct members →
    (read (.obj members) = some o ↔ Overwrites fields members default o)
  reorders : ∀ members members', Distinct members → members.Perm members' →
    read (.obj members) = read (.obj members')
  ignores : ∀ members, Distinct members →
    read (.obj (members.filter fun m => (fields.map (·.name)).contains m.1)) = read (.obj members)
  unites : ∀ first second o, Distinct (first ++ second) → (read (.obj (first ++ second)) = some o ↔
    ∃ o₁, read (.obj first) = some o₁ ∧ Overwrites fields second o₁ o)

section Laws

variable {read : Json α → Option σ} {fields : List (Field α σ)} {default : σ}

theorem ReadsPartially.of_overwrites
    (hsucceeds : ∀ members, Distinct members → ((∃ o, read (.obj members) = some o) ↔ Accepted fields members))
    (hoverwrites : ∀ members o, Distinct members →
      (read (.obj members) = some o ↔ Overwrites fields members default o)) :
    ReadsPartially read fields default where
  succeeds := hsucceeds
  overwrites := hoverwrites
  reorders members members' h hperm := Option.ext fun o => by
    rw [hoverwrites _ o h, hoverwrites _ o (h.perm hperm), overwrites_congr fun f _ => lookup_perm hperm h f.name]
  ignores members h := Option.ext fun o => by
    have hlookup : ∀ f ∈ fields, (members.filter fun m => (fields.map (·.name)).contains m.1).lookup f.name =
        members.lookup f.name := fun f hf =>
      lookup_filter (p := (fields.map (·.name)).contains) (List.contains_iff_mem.2 (List.mem_map_of_mem hf)) members
    rw [hoverwrites _ o h, hoverwrites _ o (h.filter _), overwrites_congr hlookup]
  unites first second o h := by
    have happend : ∀ o₁, Overwrites fields first default o₁ →
        (Overwrites fields (first ++ second) default o ↔ Overwrites fields second o₁ o) := fun o₁ hfirst =>
      forall₂_congr fun f hf => Field.holds_append h (hfirst f hf)
    rw [hoverwrites _ o h]
    constructor
    · intro hboth
      obtain ⟨o₁, ho₁⟩ := (hsucceeds first h.left).2 hboth.accepted.left
      exact ⟨o₁, ho₁, (happend o₁ ((hoverwrites first o₁ h.left).1 ho₁)).1 hboth⟩
    · rintro ⟨o₁, ho₁, hsecond⟩
      exact (happend o₁ ((hoverwrites first o₁ h.left).1 ho₁)).2 hsecond

/-- It is enough to know what the fields that are present make of a record. -/
theorem ReadsPartially.of_body {body : List (String × Json α) → Option σ}
    (hread : ∀ j, read j = (record? (fields.map (·.name)) j).bind body)
    (hexists : ∀ present, Accepted fields present → ∃ o, body present = some o)
    (hbody : ∀ present o, body present = some o ↔ Overwrites fields present default o) :
    ReadsPartially read fields default := by
  have hpresent : ∀ members, Distinct members → ∃ present, read (.obj members) = body present ∧
      ∀ f ∈ fields, present.lookup f.name = members.lookup f.name := fun members h => by
    obtain ⟨present, hrecord, hlookup⟩ := record?_of_distinct (fields.map (·.name)) h
    exact ⟨present, by rw [hread, hrecord, Option.bind_some], fun f hf => hlookup _ (List.mem_map_of_mem hf)⟩
  refine .of_overwrites (fun members h => ?_) fun members o h => ?_
  · obtain ⟨present, hpresent, hlookup⟩ := hpresent members h
    rw [hpresent, ← accepted_congr hlookup]
    exact ⟨fun ⟨o, ho⟩ => ((hbody present o).1 ho).accepted, hexists present⟩
  · obtain ⟨present, hpresent, hlookup⟩ := hpresent members h
    rw [hpresent, hbody, overwrites_congr hlookup]

end Laws

end MultiView.Json
