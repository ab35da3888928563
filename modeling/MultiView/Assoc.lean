/-!
# Finite maps

A finite map kept as a list of pairs, in the order in which its keys were first inserted. Inserting at a key replaces
what was there (`get?_insert`), and in a merge the second map wins (`get?_merge`).
-/

namespace MultiView

structure Assoc (κ ν : Type) where
  entries : List (κ × ν)

namespace Assoc

variable {κ ν : Type} [DecidableEq κ]

def empty : Assoc κ ν := ⟨[]⟩

/-- What the map holds at a key. -/
def get? (m : Assoc κ ν) (k : κ) : Option ν := m.entries.lookup k

/-- Replace what a list of pairs holds at a key, or append it. -/
def insertInto (k : κ) (v : ν) : List (κ × ν) → List (κ × ν)
  | [] => [(k, v)]
  | e :: es => if e.1 = k then (k, v) :: es else e :: insertInto k v es

def insert (m : Assoc κ ν) (k : κ) (v : ν) : Assoc κ ν := ⟨insertInto k v m.entries⟩

/-- The map of a list of pairs; of several at one key the last counts. -/
def ofList (es : List (κ × ν)) : Assoc κ ν := es.foldl (fun m e => m.insert e.1 e.2) empty

/-- The first map, overridden by the entries of the second in their order. -/
def merge (m n : Assoc κ ν) : Assoc κ ν := n.entries.foldl (fun m e => m.insert e.1 e.2) m

theorem lookup_cons_ite (j k : κ) (v : ν) (es : List (κ × ν)) :
    ((k, v) :: es).lookup j = if j = k then some v else es.lookup j := by
  by_cases h : j = k
  · simp [h]
  · simp [List.lookup_cons, beq_eq_false_iff_ne.2 h, h]

theorem lookup_insertInto (k j : κ) (v : ν) (es : List (κ × ν)) :
    (insertInto k v es).lookup j = if j = k then some v else es.lookup j := by
  induction es with
  | nil => rw [insertInto, lookup_cons_ite]
  | cons e es ih =>
    obtain ⟨i, w⟩ := e
    rw [insertInto]
    split
    · next h => subst h; simp only [lookup_cons_ite]; split <;> rfl
    · next h => simp only [lookup_cons_ite, ih]; grind

/-- A list of pairs whose values are those of a function holds the function's values at its keys. -/
theorem lookup_of_forall {es : List (κ × ν)} {f : κ → Option ν} (h : ∀ e ∈ es, f e.1 = some e.2) (k : κ) :
    es.lookup k = if k ∈ es.map (·.1) then f k else none := by
  induction es with
  | nil => rfl
  | cons e es ih =>
    obtain ⟨i, v⟩ := e
    rw [lookup_cons_ite, ih fun e he => h e (List.mem_cons_of_mem _ he)]
    by_cases hk : k = i
    · subst hk; simp only [List.map_cons, List.mem_cons, true_or, if_true, h (k, v) List.mem_cons_self]
    · simp only [List.map_cons, List.mem_cons, hk, false_or, if_false]

/-- Pairs whose values are changed, each by its key. -/
theorem lookup_map (f : κ → ν → ν) (es : List (κ × ν)) (k : κ) :
    (es.map fun e => (e.1, f e.1 e.2)).lookup k = (es.lookup k).map (f k) := by
  induction es with
  | nil => rfl
  | cons e es ih =>
    obtain ⟨i, v⟩ := e
    rw [List.map_cons, lookup_cons_ite, lookup_cons_ite, ih]
    split
    · next h => rw [h, Option.map_some]
    · rfl

/-- Inserting at a key that is not there appends. -/
theorem insertInto_of_not_mem {k : κ} {v : ν} {es : List (κ × ν)} (h : k ∉ es.map (·.1)) :
    insertInto k v es = es ++ [(k, v)] := by
  induction es with
  | nil => rfl
  | cons e es ih =>
    rw [List.map_cons, List.mem_cons, not_or] at h
    rw [insertInto, if_neg (Ne.symm h.1), ih h.2, List.cons_append]

@[simp] theorem get?_empty (k : κ) : (empty : Assoc κ ν).get? k = none := rfl

theorem get?_insert (m : Assoc κ ν) (k j : κ) (v : ν) :
    (m.insert k v).get? j = if j = k then some v else m.get? j := lookup_insertInto k j v m.entries

/-- Entries inserted one after another: at each key the last one counts. -/
theorem get?_foldl_insert (es : List (κ × ν)) (m : Assoc κ ν) (j : κ) :
    (es.foldl (fun m e => m.insert e.1 e.2) m).get? j = (es.reverse.lookup j).or (m.get? j) := by
  induction es generalizing m with
  | nil => simp
  | cons e es ih =>
    obtain ⟨k, v⟩ := e
    rw [List.foldl_cons, ih, get?_insert, List.reverse_cons, List.lookup_append, lookup_cons_ite, Option.or_assoc]
    split <;> simp

theorem get?_ofList (es : List (κ × ν)) (j : κ) : (ofList es).get? j = es.reverse.lookup j := by
  simp [ofList, get?_foldl_insert]

theorem get?_ofList_of_forall {es : List (κ × ν)} {f : κ → Option ν} (h : ∀ e ∈ es, f e.1 = some e.2) (k : κ) :
    (ofList es).get? k = if k ∈ es.map (·.1) then f k else none := by
  rw [get?_ofList, lookup_of_forall fun e he => h e (List.mem_reverse.1 he)]
  simp only [List.map_reverse, List.mem_reverse]

theorem get?_merge (m n : Assoc κ ν) (j : κ) :
    (m.merge n).get? j = (n.entries.reverse.lookup j).or (m.get? j) := get?_foldl_insert n.entries m j

end Assoc

end MultiView
