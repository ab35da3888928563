import MultiView.Assoc
import MultiView.Json.Record

/-!
# Laws of typed reading

An object whose members are the fields of a record is read as its members (`record?_obj`), and a field is found by its
name (`required_cons`, `withDefault_cons`). Readers undo writers: of lists where they do of each item (`list?_map`), of
optional values (`nullable?_ofOption`), and of numbers that are finite (`scalar?_ofScalar`).
-/

namespace MultiView

/-- Are all numbers of a list finite? -/
def Scalar.AllFinite {α : Type} [Scalar α] (xs : List α) : Prop := ∀ x ∈ xs, Scalar.isFinite x = true

namespace Json

variable {α τ : Type}

/-! ## Records -/

section Records

variable {names : List String} {members : List (String × Json α)} {n name : String} {j : Json α}
  {read : Json α → Option τ}

/-- An object with the fields of a record and nothing else. -/
theorem record?_obj (hnames : members.map (·.1) = names) (hnodup : names.Nodup) :
    record? names (obj members) = some members := by
  have hfilter : (members.filter fun m => names.contains m.1) = members :=
    List.filter_eq_self.2 fun m hm => List.contains_iff_mem.2 (hnames ▸ List.mem_map_of_mem hm)
  simp only [record?, hfilter]
  exact if_pos (hnames ▸ hnodup)

@[simp] theorem required_cons :
    required ((n, j) :: members) name read = if name = n then read j else required members name read := by
  rw [required, required, Assoc.lookup_cons_ite]
  split <;> rfl

@[simp] theorem withDefault_cons {default : τ} : withDefault ((n, j) :: members) name default read =
    if name = n then read j else withDefault members name default read := by
  rw [withDefault, withDefault, Assoc.lookup_cons_ite]
  by_cases h : name = n
  · rw [if_pos h, if_pos h]
  · rw [if_neg h, if_neg h]

end Records

/-! ## Values -/

theorem list?_map {read : Json α → Option τ} {write : τ → Json α} {xs : List τ}
    (h : ∀ x ∈ xs, read (write x) = some x) : list? read (arr (xs.map write)) = some xs := by
  rw [list?]
  induction xs with
  | nil => rfl
  | cons x xs ih =>
    rw [List.map_cons, List.mapM_cons, h x List.mem_cons_self, ih fun y hy => h y (List.mem_cons_of_mem x hy)]
    rfl

/-- What is written of a present value must not be `null`, which stands for its absence. -/
theorem nullable?_ofOption {read : Json α → Option τ} {write : τ → Json α} {o : Option τ}
    (h : ∀ x ∈ o, write x ≠ null ∧ read (write x) = some x) : nullable? read (ofOption write o) = some o := by
  cases o with
  | none => rfl
  | some x =>
    obtain ⟨hnull, hread⟩ := h x rfl
    rw [ofOption, nullable?]
    · rw [hread]; rfl
    · exact hnull

theorem list?_ofNats (ns : List Nat) : list? nat? (ofNats ns : Json α) = some ns := list?_map fun _ _ => rfl

/-! ## Numbers -/

section Numbers

variable [Scalar α] {x : α} {xs : List α}

theorem ofScalar_eq (h : Scalar.isFinite x = true) : ofScalar x = num x := if_pos h

theorem scalar?_ofScalar (h : Scalar.isFinite x = true) : scalar? (ofScalar x) = some x := by
  rw [ofScalar_eq h]; rfl

theorem list?_ofScalars (h : Scalar.AllFinite xs) : list? scalar? (ofScalars xs) = some xs :=
  list?_map fun x hx => scalar?_ofScalar (h x hx)

theorem nullable?_ofScalar {o : Option α} (h : Scalar.AllFinite o.toList) :
    nullable? scalar? (ofOption ofScalar o) = some o :=
  nullable?_ofOption fun x hx => by
    have hfinite : Scalar.isFinite x = true := h x (Option.mem_toList.2 hx)
    exact ⟨by simp [ofScalar_eq hfinite], scalar?_ofScalar hfinite⟩

theorem vec2?_ofScalars {v : Vec2 α} (h : Scalar.AllFinite v.toList) : vec2? (ofScalars v.toList) = some v := by
  rw [vec2?, list?_ofScalars h]; rfl

theorem vec3?_ofScalars {v : Vec3 α} (h : Scalar.AllFinite v.toList) : vec3? (ofScalars v.toList) = some v := by
  rw [vec3?, list?_ofScalars h]; rfl

end Numbers

end Json

end MultiView
