import Scriptlet.Eval.Property
import Scriptlet.Proofs.Value.Chain

/-!
Three ways up from an object.

The keys that a loop visits, the keys that an object has and the values that are read under them are
worked out one without the other. On a finite way up they agree. Main statement:
`Heap.Path.keysAgree`.
-/

namespace Scriptlet

/-- A table has a value under each of its keys, and under no others. -/
theorem Table.isSome_get?_iff {α : Type} {t : Table α} {key : String} :
    (t.get? key).isSome ↔ key ∈ t.keys := by
  suffices all : ∀ entries : List (String × α),
      (Table.lookup? key entries).isSome ↔ key ∈ entries.map (·.1) from all t.entries
  intro entries
  induction entries with
  | nil => simp [Table.lookup?]
  | cons e rest ih =>
    obtain ⟨k, v⟩ := e
    rw [Table.lookup?, List.map_cons, List.mem_cons]
    split
    next same => simp [same]
    next other => rw [ih, or_iff_right (Ne.symm other)]

namespace Heap

variable {h : Heap} {r : ObjectRef} {path : List ObjectRef} {keys : List String}

/-! ### Adding keys -/

theorem addKeys_cons (keys : List String) (k : String) (more : List String) :
    addKeys keys (k :: more) = addKeys (if keys.contains k then keys else keys ++ [k]) more :=
  rfl

theorem nodup_addKeys (distinct : keys.Nodup) (more : List String) : (addKeys keys more).Nodup := by
  induction more generalizing keys with
  | nil => exact distinct
  | cons k more ih =>
    rw [addKeys_cons]
    split
    · exact ih distinct
    next new =>
      rw [List.contains_iff_mem] at new
      refine ih (List.nodup_append.2 ⟨distinct, by simp, ?_⟩)
      rintro a there b single rfl
      exact new (List.mem_singleton.1 single ▸ there)

/-- Keys are added behind those that there are, each where it comes first. -/
theorem addKeys_eq (distinct : keys.eraseDups = keys) (more : List String) :
    addKeys keys more = (keys ++ more).eraseDups := by
  induction more generalizing keys with
  | nil => rw [List.append_nil, distinct, addKeys, List.foldl_nil]
  | cons k more ih =>
    rw [addKeys_cons]
    by_cases there : k ∈ keys
    · rw [if_pos (List.contains_iff_mem.2 there), ih distinct, List.eraseDups_append,
        List.eraseDups_append]
      simp [List.cons_removeAll, there]
    · have added : (keys ++ [k]).eraseDups = keys ++ [k] := by
        rw [List.eraseDups_append, distinct]
        simp [List.cons_removeAll, there, List.eraseDups_cons]
      rw [if_neg (mt List.contains_iff_mem.1 there), ih added, List.append_assoc,
        List.singleton_append]

/-- The keys of objects one after the other, each where it comes first. -/
theorem foldl_addKeys_eq (objects : List Object) :
    objects.foldl (fun ks o => addKeys ks o.props.keys) [] =
      (objects.flatMap (·.props.keys)).eraseDups := by
  have all :
      (objects.flatMap (·.props.keys)).eraseDups = addKeys [] (objects.flatMap (·.props.keys)) :=
    (addKeys_eq List.eraseDups_nil _).symm
  rw [all, addKeys, List.foldl_flatMap]
  rfl

theorem nodup_enumerableKeys (h : Heap) (r : ObjectRef) : (h.enumerableKeys (.object r)).Nodup := by
  have all : h.enumerableKeys (.object r) = addKeys [] ((h.chain r).flatMap (·.props.keys)) := by
    rw [enumerableKeys, foldl_addKeys_eq, addKeys_eq List.eraseDups_nil, List.nil_append]
  exact all ▸ nodup_addKeys List.nodup_nil _

end Heap

/-! ### Agreement -/

/-- The keys that a loop over an object visits, those that it has and those that it can be read at
are the same: its own in their order, followed by those of what it inherits from, the nearest
first. -/
structure State.KeysAgree (s : State) (r : ObjectRef) (path : List ObjectRef) : Prop where
  way : s.heap.Path r path
  distinct : (s.heap.enumerableKeys (.object r)).Nodup
  own : s.heap.ownKeys (.object r) <+: s.heap.enumerableKeys (.object r)
  order : s.heap.enumerableKeys (.object r) =
    (path.flatMap fun x => s.heap.ownKeys (.object x)).eraseDups
  has : ∀ key, key ∈ s.heap.enumerableKeys (.object r) ↔
    Eval.hasProperty (.object r) key s = .ok true s
  found : ∀ key, key ∈ s.heap.enumerableKeys (.object r) ↔ (s.heap.lookup? r key).isSome
  nearest : ∀ key v, s.heap.lookup? r key = some v ↔ ∃ below x above, path = below ++ x :: above ∧
    (s.heap.object x).props.get? key = some v ∧ ∀ y ∈ below, (s.heap.object y).props.get? key = none

namespace Heap

variable {h : Heap} {r : ObjectRef} {path : List ObjectRef}

theorem Path.head_eq (finite : h.Path r path) : ∃ above, path = r :: above := by
  cases finite with
  | last => exact ⟨[], rfl⟩
  | heir _ rest => exact ⟨_, rfl⟩

theorem Path.keysAgree {s : State} (finite : s.heap.Path r path)
    (there : ∀ x ∈ path, x ∈ s.heap.existing) :
    s.KeysAgree r path := by
  have chain := finite.chain_eq there
  have order : s.heap.enumerableKeys (.object r) =
      (path.flatMap fun x => s.heap.ownKeys (.object x)).eraseDups := by
    rw [enumerableKeys, foldl_addKeys_eq, chain, List.flatMap_map]
    rfl
  -- a key is visited where an object on the way has it
  have visited (key : String) : key ∈ s.heap.enumerableKeys (.object r) ↔
      ∃ x ∈ path, (s.heap.object x).props.contains key = true := by
    rw [order, List.mem_eraseDups, List.mem_flatMap]
    simp only [Table.contains, Table.isSome_get?_iff]
    rfl
  refine ⟨finite, nodup_enumerableKeys s.heap r, ?_, order, fun key => ?_, fun key => ?_,
    fun key v => ?_⟩
  · obtain ⟨above, rfl⟩ := finite.head_eq
    have own : (s.heap.ownKeys (.object r)).eraseDups = s.heap.ownKeys (.object r) := by
      have added := addKeys_eq List.eraseDups_nil (s.heap.ownKeys (.object r))
      rw [List.nil_append] at added
      rw [← added]
      exact addKeys_nil (s.heap.object r).props.nodup
    rw [order, List.flatMap_cons, List.eraseDups_append, own]
    exact List.prefix_append ..
  · have has : Eval.hasProperty (.object r) key s = .ok (s.heap.inherits r key) s := rfl
    rw [visited, has, inherits, chain]
    simp
  · rw [visited, lookup?, chain, List.findSome?_isSome_iff]
    simp [Table.contains]
  · rw [lookup?, chain, List.findSome?_eq_some_iff]
    constructor
    · rintro ⟨below, o, above, same, here, none⟩
      obtain ⟨below, rest, rfl, rfl, tail⟩ := List.map_eq_append_iff.1 same
      obtain ⟨x, above, rfl, rfl, rfl⟩ := List.map_eq_cons_iff.1 tail
      exact ⟨below, x, above, rfl, here, fun y member => none _ (List.mem_map_of_mem member)⟩
    · rintro ⟨below, x, above, rfl, here, none⟩
      refine ⟨below.map s.heap.object, s.heap.object x,
        above.map s.heap.object, by simp, here, fun o member => ?_⟩
      obtain ⟨y, on, rfl⟩ := List.mem_map.1 member
      exact none y on

end Heap

end Scriptlet
