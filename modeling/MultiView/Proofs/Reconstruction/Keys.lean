import Mathlib.Data.List.Basic
import Mathlib.Data.List.Nodup
import Mathlib.Logic.Function.Basic
import Std.Data.String.ToNat
import MultiView.Reconstruction.Assembly

/-!
# Keys of blocks

Keys are told apart by the names of their blocks (`LawfulBlockKey`), since a number is read back from its digits
(`digits_injective`), and so are two numbers with a slash between them (`digits_slash_injective`).

`addKeys` grows a list of keys by those that it does not hold yet: it never holds one twice (`nodup_addKeys`), and the
positions of its keys stay when it grows (`idxOf_addKeys`).
-/

namespace MultiView

/-- Different keys have different names. -/
class LawfulBlockKey (κ : Type) [BlockKey κ] : Prop where
  name_injective : Function.Injective (BlockKey.name : κ → String)

/-! ## Names -/

theorem digits_injective {m n : Nat} (h : Nat.toDigits 10 m = Nat.toDigits 10 n) : m = n := by
  rw [← Nat.toList_repr, ← Nat.toList_repr, String.toList_inj] at h
  exact Nat.repr_injective h

theorem slash_notMem_digits (n : Nat) : '/' ∉ Nat.toDigits 10 n := by
  intro h
  have hdigit := Nat.isDigit_of_mem_toDigits (by decide) (by decide) h
  revert hdigit
  decide

theorem digits_slash_injective {m n m' n' : Nat}
    (h : Nat.toDigits 10 m ++ '/' :: Nat.toDigits 10 n = Nat.toDigits 10 m' ++ '/' :: Nat.toDigits 10 n') :
    m = m' ∧ n = n' := by
  obtain ⟨hm, -, hn⟩ := (List.append_cons_inj_of_notMem (slash_notMem_digits m) (slash_notMem_digits n)).1 h
  exact ⟨digits_injective hm, digits_injective hn⟩

/-! ## Growing lists of keys -/

variable {κ : Type} [DecidableEq κ]

/-- The list with a key, at its end unless it is there already. -/
def addKey (ks : List κ) (k : κ) : List κ := if k ∈ ks then ks else ks ++ [k]

/-- The list with more keys, each at its first occurrence. -/
def addKeys (ks new : List κ) : List κ := new.foldl addKey ks

variable {ks new : List κ} {k : κ}

theorem addKey_of_mem (h : k ∈ ks) : addKey ks k = ks := if_pos h

theorem addKey_of_notMem (h : k ∉ ks) : addKey ks k = ks ++ [k] := if_neg h

@[simp] theorem addKeys_nil (ks : List κ) : addKeys ks [] = ks := rfl

theorem addKeys_cons (ks new : List κ) (k : κ) : addKeys ks (k :: new) = addKeys (addKey ks k) new := rfl

theorem addKeys_append (ks new more : List κ) : addKeys ks (new ++ more) = addKeys (addKeys ks new) more :=
  List.foldl_append

@[simp] theorem mem_addKey {j : κ} : j ∈ addKey ks k ↔ j ∈ ks ∨ j = k := by
  by_cases h : k ∈ ks
  · rw [addKey_of_mem h]
    exact ⟨.inl, fun hj => hj.elim id fun he => he ▸ h⟩
  · rw [addKey_of_notMem h, List.mem_append, List.mem_singleton]

@[simp] theorem mem_addKeys {j : κ} : j ∈ addKeys ks new ↔ j ∈ ks ∨ j ∈ new := by
  induction new generalizing ks with
  | nil => simp
  | cons k new ih => rw [addKeys_cons, ih, mem_addKey, List.mem_cons, or_assoc]

theorem prefix_addKey (ks : List κ) (k : κ) : ks <+: addKey ks k := by
  by_cases h : k ∈ ks
  · exact (addKey_of_mem h).symm ▸ List.prefix_refl ks
  · rw [addKey_of_notMem h]; exact List.prefix_append ks [k]

theorem prefix_addKeys (ks new : List κ) : ks <+: addKeys ks new := by
  induction new generalizing ks with
  | nil => exact List.prefix_refl ks
  | cons k new ih => exact (prefix_addKey ks k).trans (ih (addKey ks k))

theorem nodup_addKeys (h : ks.Nodup) (new : List κ) : (addKeys ks new).Nodup := by
  induction new generalizing ks with
  | nil => exact h
  | cons k new ih =>
    refine ih ?_
    by_cases hk : k ∈ ks
    · rwa [addKey_of_mem hk]
    · rw [addKey_of_notMem hk]; exact List.concat_eq_append ▸ h.concat hk

/-- A key keeps its position in a longer list. -/
theorem idxOf_extend {js : List κ} (h : ks <+: js) (hk : k ∈ ks) : js.idxOf k = ks.idxOf k := by
  obtain ⟨ls, rfl⟩ := h
  exact List.idxOf_append_of_mem hk

theorem idxOf_addKeys (hk : k ∈ ks) (new : List κ) : (addKeys ks new).idxOf k = ks.idxOf k :=
  idxOf_extend (prefix_addKeys ks new) hk

/-- Something for the elements that pass a test only. -/
theorem flatMap_ite_singleton {σ τ : Type} (test : σ → Bool) (f : σ → τ) (xs : List σ) :
    (xs.flatMap fun x => if test x then [f x] else []) = (xs.filter test).map f := by
  induction xs with
  | nil => rfl
  | cons x xs ih => cases hx : test x <;> simp [hx, ih]

/-- Elements that fail a test may be left out if they contribute nothing. -/
theorem flatMap_filter {σ τ : Type} {test : σ → Bool} {f : σ → List τ} (h : ∀ x, test x = false → f x = [])
    (xs : List σ) : (xs.filter test).flatMap f = xs.flatMap f := by
  induction xs with
  | nil => rfl
  | cons x xs ih => cases hx : test x <;> simp [hx, ih, h]

/-- Positions that are not looked at may be left out. -/
theorem flatMap_zipIdx {σ τ : Type} (f : σ → List τ) (xs : List σ) :
    (xs.zipIdx.flatMap fun x => f x.1) = xs.flatMap f := by
  conv_rhs => rw [← List.zipIdx_map_fst 0 xs, List.flatMap_map]

/-- A new key changes the positions of no other keys. -/
theorem map_idxOf_filter_concat (again : κ → Bool) (ks : List κ) (k : κ) :
    ((ks.filter again).map fun j => (j, (ks ++ [k]).idxOf j)) = (ks.filter again).map fun j => (j, ks.idxOf j) := by
  refine List.map_congr_left fun j hj => ?_
  rw [List.idxOf_append_of_mem (List.mem_of_mem_filter hj)]

end MultiView
