/-!
# Tables

A finite map kept as the list of its entries in the order in which their keys were first entered.
No key occurs twice, which is part of the type, so the number of entries is the number of keys. A
table is judged by `find?`: each operation has one lemma that says what it does to it.
-/

namespace ChatRelay

universe u v

/-- A finite map with the keys in order of first entry. -/
structure Table (κ : Type u) (α : Type v) where
  entries : List (κ × α)
  nodup : (entries.map Prod.fst).Nodup
  deriving DecidableEq, Repr

namespace Table

variable {κ : Type u} {α : Type v} [DecidableEq κ]

/-- Enter a value in a list of entries, in the place of the key's old value if it has one. -/
def enter (k : κ) (a : α) : List (κ × α) → List (κ × α)
  | [] => [(k, a)]
  | e :: es => if e.1 = k then (k, a) :: es else e :: enter k a es

theorem mem_keys_enter {k : κ} {a : α} {es : List (κ × α)} {k' : κ} :
    k' ∈ (enter k a es).map Prod.fst ↔ k' = k ∨ k' ∈ es.map Prod.fst := by
  induction es with
  | nil => simp [enter]
  | cons e es ih =>
    unfold enter
    split
    next h => simp [h]
    next h =>
      rw [List.map_cons, List.mem_cons, ih, List.map_cons, List.mem_cons]
      exact or_left_comm

theorem nodup_enter {k : κ} {a : α} {es : List (κ × α)} (h : (es.map Prod.fst).Nodup) :
    ((enter k a es).map Prod.fst).Nodup := by
  induction es with
  | nil => simp [enter]
  | cons e es ih =>
    rw [List.map_cons, List.nodup_cons] at h
    unfold enter
    split
    next he => simp only [List.map_cons, List.nodup_cons]; exact he ▸ h
    next he =>
      rw [List.map_cons, List.nodup_cons, mem_keys_enter]
      exact ⟨fun hm => hm.elim he h.1, ih h.2⟩

def empty : Table κ α := ⟨[], .nil⟩

/-- The value of a key. -/
def find? (t : Table κ α) (k : κ) : Option α :=
  t.entries.lookup k

/-- Give a key a value. -/
def insert (t : Table κ α) (k : κ) (a : α) : Table κ α :=
  ⟨enter k a t.entries, nodup_enter t.nodup⟩

/-- Take a key out. -/
def erase (t : Table κ α) (k : κ) : Table κ α :=
  ⟨t.entries.filter fun e => e.1 ≠ k, t.nodup.sublist (List.filter_sublist.map _)⟩

/-- The table of a list of entries, of which a later one wins. -/
def ofList (es : List (κ × α)) : Table κ α :=
  es.foldl (fun t e => t.insert e.1 e.2) empty

def keys (t : Table κ α) : List κ :=
  t.entries.map Prod.fst

def size (t : Table κ α) : Nat :=
  t.entries.length

@[simp] theorem find?_empty (k : κ) : (empty : Table κ α).find? k = none := rfl

theorem lookup_enter (k k' : κ) (a : α) (es : List (κ × α)) :
    (enter k a es).lookup k' = if k' = k then some a else es.lookup k' := by
  induction es with
  | nil =>
    by_cases h : k' = k
    · simp [enter, h]
    · simp [enter, List.lookup_cons, h, beq_false_of_ne h]
  | cons e es ih =>
    unfold enter
    split
    next h =>
      obtain ⟨k₀, a₀⟩ := e
      subst h
      by_cases hk : k' = k₀
      · simp [hk]
      · simp [List.lookup_cons, hk, beq_false_of_ne hk]
    next h =>
      obtain ⟨k₀, a₀⟩ := e
      by_cases hk : k' = k₀
      · subst hk
        simp [h]
      · simp [List.lookup_cons, beq_false_of_ne hk, ih]

@[simp] theorem find?_insert (t : Table κ α) (k k' : κ) (a : α) :
    (t.insert k a).find? k' = if k' = k then some a else t.find? k' :=
  lookup_enter k k' a t.entries

theorem lookup_filter_ne (k k' : κ) (es : List (κ × α)) :
    (es.filter fun e => e.1 ≠ k).lookup k' = if k' = k then none else es.lookup k' := by
  induction es with
  | nil => simp
  | cons e es ih =>
    obtain ⟨k₀, a₀⟩ := e
    by_cases h : k₀ = k
    · subst h
      rw [List.filter_cons_of_neg (by simp), ih]
      by_cases hk : k' = k₀
      · simp [hk]
      · simp [List.lookup_cons, hk, beq_false_of_ne hk]
    · rw [List.filter_cons_of_pos (by simpa using h)]
      by_cases hk : k' = k₀
      · subst hk
        simp [h]
      · simp only [List.lookup_cons, beq_false_of_ne hk]
        exact ih

@[simp] theorem find?_erase (t : Table κ α) (k k' : κ) :
    (t.erase k).find? k' = if k' = k then none else t.find? k' :=
  lookup_filter_ne k k' t.entries

theorem mem_keys {t : Table κ α} {k : κ} : k ∈ t.keys ↔ (t.find? k).isSome = true := by
  rw [keys, find?, List.lookup_isSome_iff, List.mem_map]
  constructor
  · rintro ⟨e, he, rfl⟩
    exact ⟨e, he, beq_self_eq_true e.1⟩
  · rintro ⟨e, he, hk⟩
    exact ⟨e, he, (eq_of_beq hk).symm⟩

end Table

end ChatRelay
