/-!
Tables from names to values that remember the order in which their keys came.

A table has every key once, so it is told by its list of entries. Inserting a key that is there
keeps its place, and inserting a new one puts it last.
-/

namespace Scriptlet

/-- Values under distinct keys, in the order in which the keys were first inserted. -/
structure Table (α : Type) where
  entries : List (String × α) := []
  nodup : (entries.map (·.1)).Nodup := by exact List.nodup_nil
  deriving Repr

namespace Table

variable {α : Type}

instance : Inhabited (Table α) := ⟨{}⟩

/-- The value of the first entry of a key. -/
def lookup? (key : String) : List (String × α) → Option α
  | [] => none
  | (k, v) :: rest => if k = key then some v else lookup? key rest

/-- Entries with one more, which replaces an earlier one of the same key in its place. -/
def insertEntry (key : String) (value : α) : List (String × α) → List (String × α)
  | [] => [(key, value)]
  | (k, v) :: rest =>
    if k = key then (k, value) :: rest else (k, v) :: insertEntry key value rest

def eraseEntry (key : String) : List (String × α) → List (String × α)
  | [] => []
  | (k, v) :: rest => if k = key then rest else (k, v) :: eraseEntry key rest

theorem map_fst_insertEntry (key : String) (value : α) (es : List (String × α)) :
    (insertEntry key value es).map (·.1) =
      if key ∈ es.map (·.1) then es.map (·.1) else es.map (·.1) ++ [key] := by
  induction es with
  | nil => simp [insertEntry]
  | cons e es ih =>
    obtain ⟨k, v⟩ := e
    by_cases h : k = key
    · simp [insertEntry, h]
    · simp only [insertEntry, if_neg h, List.map_cons, ih, List.mem_cons, Ne.symm h, false_or]
      split <;> simp

theorem map_fst_eraseEntry_sublist (key : String) (es : List (String × α)) :
    ((eraseEntry key es).map (·.1)).Sublist (es.map (·.1)) := by
  induction es with
  | nil => simp [eraseEntry]
  | cons e es ih =>
    obtain ⟨k, v⟩ := e
    by_cases h : k = key
    · simp [eraseEntry, h]
    · simpa [eraseEntry, h] using ih

theorem nodup_insertEntry (key : String) (value : α) {es : List (String × α)}
    (h : (es.map (·.1)).Nodup) : ((insertEntry key value es).map (·.1)).Nodup := by
  rw [map_fst_insertEntry]
  split
  · exact h
  · rename_i absent
    refine List.nodup_append.2 ⟨h, by simp, ?_⟩
    intro a ha b hb
    simp only [List.mem_singleton] at hb
    subst hb
    exact fun same => absent (same ▸ ha)

def get? (t : Table α) (key : String) : Option α :=
  lookup? key t.entries

def contains (t : Table α) (key : String) : Bool :=
  (t.get? key).isSome

def keys (t : Table α) : List String :=
  t.entries.map (·.1)

def values (t : Table α) : List α :=
  t.entries.map (·.2)

def size (t : Table α) : Nat :=
  t.entries.length

def isEmpty (t : Table α) : Bool :=
  t.entries.isEmpty

/-- Binds a key to a value; a key that is there keeps its place. -/
def insert (t : Table α) (key : String) (value : α) : Table α where
  entries := insertEntry key value t.entries
  nodup := nodup_insertEntry key value t.nodup

/-- Forgets a key. -/
def erase (t : Table α) (key : String) : Table α where
  entries := eraseEntry key t.entries
  nodup := t.nodup.sublist (map_fst_eraseEntry_sublist key t.entries)

def ofList (entries : List (String × α)) : Table α :=
  entries.foldl (fun t e => t.insert e.1 e.2) {}

/-! ### Reading what was written -/

theorem lookup?_insertEntry (key other : String) (value : α) (es : List (String × α)) :
    lookup? other (insertEntry key value es) =
      if key = other then some value else lookup? other es := by
  induction es with
  | nil => simp [insertEntry, lookup?]
  | cons e es ih =>
    obtain ⟨k, v⟩ := e
    by_cases h : k = key
    · subst h
      by_cases same : k = other <;> simp [insertEntry, lookup?, same]
    · by_cases same : k = other
      · subst same
        simp [insertEntry, lookup?, h, Ne.symm h]
      · simp [insertEntry, lookup?, h, same, ih]

theorem get?_insert (t : Table α) (key other : String) (value : α) :
    (t.insert key value).get? other = if key = other then some value else t.get? other :=
  lookup?_insertEntry key other value t.entries

@[simp] theorem get?_insert_self (t : Table α) (key : String) (value : α) :
    (t.insert key value).get? key = some value := by
  simp [get?_insert]

theorem get?_insert_of_ne (t : Table α) {key other : String} (h : key ≠ other) (value : α) :
    (t.insert key value).get? other = t.get? other := by
  simp [get?_insert, h]

theorem lookup?_eq_none {key : String} {es : List (String × α)}
    (h : key ∉ es.map (·.1)) : lookup? key es = none := by
  induction es with
  | nil => rfl
  | cons e es ih =>
    obtain ⟨k, v⟩ := e
    simp only [List.map_cons, List.mem_cons, not_or] at h
    simp [lookup?, Ne.symm h.1, ih h.2]

theorem lookup?_eraseEntry (key other : String) {es : List (String × α)}
    (h : (es.map (·.1)).Nodup) :
    lookup? other (eraseEntry key es) = if key = other then none else lookup? other es := by
  induction es with
  | nil => simp [eraseEntry, lookup?]
  | cons e es ih =>
    obtain ⟨k, v⟩ := e
    obtain ⟨fresh, rest⟩ := List.nodup_cons.1 h
    by_cases here : k = key
    · subst here
      by_cases same : k = other
      · subst same
        simpa [eraseEntry] using lookup?_eq_none fresh
      · simp [eraseEntry, lookup?, same]
    · by_cases same : k = other
      · subst same
        simp [eraseEntry, lookup?, here, Ne.symm here]
      · simp [eraseEntry, lookup?, here, same, ih rest]

/-- A key is gone once it is erased, because no second entry of it can come to light. -/
theorem get?_erase (t : Table α) (key other : String) :
    (t.erase key).get? other = if key = other then none else t.get? other :=
  lookup?_eraseEntry key other t.nodup

theorem keys_insert (t : Table α) (key : String) (value : α) :
    (t.insert key value).keys = if key ∈ t.keys then t.keys else t.keys ++ [key] :=
  map_fst_insertEntry key value t.entries

theorem nodup_keys (t : Table α) : t.keys.Nodup :=
  t.nodup

theorem insertEntry_of_not_mem {key : String} {value : α} {es : List (String × α)}
    (new : key ∉ es.map (·.1)) : insertEntry key value es = es ++ [(key, value)] := by
  induction es with
  | nil => rfl
  | cons e es ih =>
    obtain ⟨k, v⟩ := e
    rw [List.map_cons, List.mem_cons, not_or] at new
    rw [insertEntry, if_neg (Ne.symm new.1), ih new.2, List.cons_append]

/-- Entries under new keys come last, in their order. -/
theorem entries_foldl_insert {entries : List (String × α)} {t : Table α}
    (distinct : (t.keys ++ entries.map (·.1)).Nodup) :
    (entries.foldl (fun t e => t.insert e.1 e.2) t).entries = t.entries ++ entries := by
  induction entries generalizing t with
  | nil => simp
  | cons e rest ih =>
    have new : e.1 ∉ t.keys := fun member =>
      (List.nodup_append.1 distinct).2.2 e.1 member e.1 List.mem_cons_self rfl
    have entries : (t.insert e.1 e.2).entries = t.entries ++ [e] := insertEntry_of_not_mem new
    have later : ((t.insert e.1 e.2).keys ++ rest.map (·.1)).Nodup := by
      rw [keys_insert, if_neg new]
      simpa using distinct
    rw [List.foldl_cons, ih later, entries]
    simp

/-- Entries under distinct keys are kept as they are. -/
theorem entries_ofList {entries : List (String × α)}
    (keys : (entries.map (·.1)).Nodup) : (ofList entries).entries = entries :=
  @entries_foldl_insert _ _ {} keys

/-! ### Values -/

theorem mem_of_lookup? {key : String} {value : α} {es : List (String × α)}
    (found : lookup? key es = some value) : (key, value) ∈ es := by
  induction es with
  | nil => simp [lookup?] at found
  | cons e es ih =>
    obtain ⟨k, v⟩ := e
    by_cases here : k = key
    · simp only [lookup?, here, if_true, Option.some.injEq] at found
      simp [here, found]
    · simp only [lookup?, if_neg here] at found
      exact List.mem_cons_of_mem _ (ih found)

theorem lookup?_of_mem {e : String × α} {es : List (String × α)} (distinct : (es.map (·.1)).Nodup)
    (member : e ∈ es) : lookup? e.1 es = some e.2 := by
  induction es with
  | nil => cases member
  | cons first es ih =>
    obtain ⟨apart, distinct⟩ := List.nodup_cons.1 distinct
    rcases List.mem_cons.1 member with rfl | later
    · exact if_pos rfl
    · have other : first.1 ≠ e.1 := fun same => apart (List.mem_map.2 ⟨e, later, same.symm⟩)
      exact (if_neg other).trans (ih distinct later)

/-- The value of an entry is the value under its key. -/
theorem get?_eq_some_of_mem {t : Table α} {e : String × α} (member : e ∈ t.entries) :
    t.get? e.1 = some e.2 :=
  lookup?_of_mem t.nodup member

theorem mem_values_of_get? {t : Table α} {key : String} {value : α}
    (found : t.get? key = some value) : value ∈ t.values :=
  List.mem_map.2 ⟨(key, value), mem_of_lookup? found, rfl⟩

theorem eraseEntry_subset (key : String) (es : List (String × α)) : eraseEntry key es ⊆ es := by
  induction es with
  | nil => exact List.Subset.refl _
  | cons e es ih =>
    obtain ⟨k, v⟩ := e
    unfold eraseEntry
    split
    · exact List.subset_cons_self ..
    · exact List.cons_subset_cons _ ih

/-- Erasing brings no values. -/
theorem mem_values_of_mem_erase {t : Table α} {key : String} {v : α}
    (member : v ∈ (t.erase key).values) : v ∈ t.values :=
  List.map_subset _ (eraseEntry_subset key t.entries) member

theorem of_mem_insertEntry {key : String} {value : α} {e : String × α} {es : List (String × α)}
    (member : e ∈ insertEntry key value es) : e.2 = value ∨ e ∈ es := by
  induction es with
  | nil => exact .inl (by simp_all [insertEntry])
  | cons e' es ih =>
    obtain ⟨k, v⟩ := e'
    by_cases here : k = key
    · simp only [insertEntry, here, if_true, List.mem_cons] at member
      rcases member with rfl | member
      · exact .inl rfl
      · exact .inr (List.mem_cons_of_mem _ member)
    · simp only [insertEntry, if_neg here, List.mem_cons] at member
      rcases member with rfl | member
      · exact .inr List.mem_cons_self
      · exact (ih member).imp_right (List.mem_cons_of_mem _)

/-- Inserting brings no value but the one inserted. -/
theorem of_mem_values_insert {t : Table α} {key : String} {value v : α}
    (member : v ∈ (t.insert key value).values) : v = value ∨ v ∈ t.values := by
  obtain ⟨e, there, rfl⟩ := List.mem_map.1 member
  exact (of_mem_insertEntry there).imp_right fun old => List.mem_map.2 ⟨e, old, rfl⟩

end Table

end Scriptlet
