import Mathlib.Data.List.Induction
import Mathlib.Data.Nat.Find
import Scriptlet.Proofs.Value.Enumeration

/-!
Tables and what was done to them.

A table keeps no record of its changes. Its keys are nevertheless those that a log of all changes
leaves set, each at the place of its first setting since it was deleted last. Main statement:
`Change.keeps_foldl`.
-/

namespace Scriptlet

/-- A change of a table: a key is set to a value, or deleted. -/
structure Change (α : Type) where
  key : String
  value? : Option α

namespace Change

variable {α : Type} {log : List (Change α)} {c : Change α} {key k : String} {v w : α} {i j : Nat}

def apply (t : Table α) (c : Change α) : Table α :=
  match c.value? with
  | some v => t.insert c.key v
  | none => t.erase c.key

/-- The settings that make a table. -/
def ofTable (t : Table α) : List (Change α) :=
  t.entries.map fun e => ⟨e.1, some e.2⟩

/-! ### Places in a log -/

def SetsAt (log : List (Change α)) (key : String) (i : Nat) : Prop :=
  ∃ v, log[i]? = some ⟨key, some v⟩

def DeletesAt (log : List (Change α)) (key : String) (i : Nat) : Prop :=
  log[i]? = some ⟨key, none⟩

/-- The change at a place is the first setting of a key since its last deletion. -/
structure Opens (log : List (Change α)) (key : String) (i : Nat) : Prop where
  sets : SetsAt log key i
  stays : ∀ j, i < j → ¬DeletesAt log key j
  first : ∀ j < i, SetsAt log key j → ∃ d, j < d ∧ d < i ∧ DeletesAt log key d

/-- The last change of a key sets it to a value. -/
def Lasts (log : List (Change α)) (key : String) (v : α) : Prop :=
  ∃ i : Nat, log[i]? = some ⟨key, some v⟩ ∧ ∀ j : Nat, i < j → ∀ c, log[j]? = some c → c.key ≠ key

/-- Keys, and how values are read under them, hold what a log leaves: the keys set since their last
deletion, once each, in the order in which these first settings came, and each with the last
value. -/
structure Keeps (log : List (Change α)) (keys : List String) (read : String → Option α) : Prop where
  distinct : keys.Nodup
  members : ∀ key, key ∈ keys ↔ ∃ i, Opens log key i
  order : keys.Pairwise fun a b => ∀ i j, Opens log a i → Opens log b j → i < j
  values : ∀ key ∈ keys, ∃ v, Lasts log key v ∧ read key = some v

/-! ### One more change -/

theorem getElem?_snoc : (log ++ [c])[i]? = if i = log.length then some c else log[i]? := by
  split
  next last => simp [last]
  next other =>
    rcases Nat.lt_or_gt_of_ne other with inside | beyond
    · rw [List.getElem?_append_left inside]
    · have past : (log ++ [c]).length ≤ i := by simpa using Nat.succ_le_of_lt beyond
      rw [List.getElem?_eq_none past, List.getElem?_eq_none (Nat.le_of_lt beyond)]

theorem SetsAt.lt_length (sets : SetsAt log key i) : i < log.length := by
  obtain ⟨v, here⟩ := sets
  exact (List.getElem?_eq_some_iff.1 here).1

theorem DeletesAt.lt_length (deletes : DeletesAt log key i) : i < log.length :=
  (List.getElem?_eq_some_iff.1 deletes).1

theorem setsAt_snoc : SetsAt (log ++ [c]) key i ↔
    SetsAt log key i ∨ i = log.length ∧ c.key = key ∧ c.value?.isSome := by
  obtain ⟨k, w⟩ := c
  unfold SetsAt
  simp only [getElem?_snoc]
  split
  next last => simp [last, Option.isSome_iff_exists]
  next other => simp [other]

theorem deletesAt_snoc : DeletesAt (log ++ [c]) key i ↔
    DeletesAt log key i ∨ i = log.length ∧ c = ⟨key, none⟩ := by
  unfold DeletesAt
  rw [getElem?_snoc]
  split
  next last => simp [last]
  next other => simp [other]

/-- A key that is set and not deleted afterwards was set first at some place. -/
theorem exists_opens (sets : SetsAt log key i) (stays : ∀ j, i < j → ¬DeletesAt log key j) :
    ∃ j, Opens log key j := by
  classical
  have places : ∃ i, SetsAt log key i ∧ ∀ j, i < j → ¬DeletesAt log key j := ⟨i, sets, stays⟩
  obtain ⟨⟨v, here⟩, stays⟩ := Nat.find_spec places
  refine ⟨Nat.find places, ⟨v, here⟩, stays, fun j before earlier => ?_⟩
  obtain ⟨d, after, deletes⟩ : ∃ d, j < d ∧ DeletesAt log key d := by
    simpa [earlier] using Nat.find_min places before
  refine
    ⟨d, after, Nat.lt_of_le_of_ne (Nat.le_of_not_lt fun late => stays d late deletes) ?_, deletes⟩
  rintro rfl
  cases here.symm.trans deletes

theorem Opens.lt_length (opens : Opens log key i) : i < log.length :=
  opens.sets.lt_length

theorem opens_set : Opens (log ++ [⟨k, some w⟩]) key i ↔
    Opens log key i ∨ key = k ∧ i = log.length ∧ ∀ j, ¬Opens log k j := by
  have deletes (d : Nat) : DeletesAt (log ++ [⟨k, some w⟩]) key d ↔ DeletesAt log key d := by
    simp [deletesAt_snoc]
  constructor
  · rintro ⟨sets, stays, first⟩
    simp only [deletes] at stays first
    rcases setsAt_snoc.1 sets with old | ⟨rfl, rfl, -⟩
    · exact .inl ⟨old, stays, fun j before earlier => first j before (setsAt_snoc.2 (.inl earlier))⟩
    · refine .inr ⟨rfl, rfl, fun j opens => ?_⟩
      obtain ⟨d, after, -, deleted⟩ := first j opens.lt_length (setsAt_snoc.2 (.inl opens.sets))
      exact opens.stays d after deleted
  · rintro (opens | ⟨rfl, rfl, none⟩)
    · have stays : ∀ j, i < j → ¬DeletesAt (log ++ [⟨k, some w⟩]) key j := by
        simpa only [deletes] using opens.stays
      refine ⟨setsAt_snoc.2 (.inl opens.sets), stays, fun j before earlier => ?_⟩
      simp only [deletes]
      rcases setsAt_snoc.1 earlier with old | ⟨rfl, -, -⟩
      · exact opens.first j before old
      · exact absurd opens.lt_length (Nat.lt_asymm before)
    · refine ⟨setsAt_snoc.2 (.inr ⟨rfl, rfl, rfl⟩), fun j beyond => ?_, fun j before earlier => ?_⟩
      · rw [deletes]
        exact fun deleted => Nat.lt_asymm beyond deleted.lt_length
      · -- a setting that is not undone would have made the key a member
        rcases setsAt_snoc.1 earlier with old | ⟨rfl, -, -⟩
        · by_contra kept
          simp only [deletes] at kept
          obtain ⟨j, opens⟩ := exists_opens old fun d after deleted =>
            kept ⟨d, after, deleted.lt_length, deleted⟩
          exact none j opens
        · exact absurd before (Nat.lt_irrefl _)

theorem opens_delete : Opens (log ++ [⟨k, none⟩]) key i ↔ Opens log key i ∧ key ≠ k := by
  have sets (j : Nat) : SetsAt (log ++ [⟨k, none⟩]) key j ↔ SetsAt log key j := by
    simp [setsAt_snoc]
  constructor
  · rintro ⟨here, stays, first⟩
    rw [sets] at here
    simp only [sets] at first
    refine ⟨⟨here, fun j after deleted => stays j after (deletesAt_snoc.2 (.inl deleted)),
      fun j before earlier => ?_⟩, ?_⟩
    · obtain ⟨d, after, until', deleted⟩ := first j before earlier
      refine ⟨d, after, until', (deletesAt_snoc.1 deleted).resolve_right ?_⟩
      rintro ⟨rfl, -⟩
      exact Nat.lt_asymm until' here.lt_length
    · rintro rfl
      exact stays _ here.lt_length (deletesAt_snoc.2 (.inr ⟨rfl, rfl⟩))
  · rintro ⟨opens, other⟩
    have deletes (d : Nat) : DeletesAt (log ++ [⟨k, none⟩]) key d ↔ DeletesAt log key d := by
      simp [deletesAt_snoc, Ne.symm other]
    refine
      ⟨(sets i).2 opens.sets, by simpa only [deletes] using opens.stays, fun j before earlier => ?_⟩
    simpa only [deletes] using opens.first j before ((sets j).1 earlier)

theorem lasts_snoc : Lasts (log ++ [c]) key v ↔
    if c.key = key then c.value? = some v else Lasts log key v := by
  obtain ⟨k, w⟩ := c
  unfold Lasts
  simp only [getElem?_snoc]
  split
  next same =>
    constructor
    · rintro ⟨i, here, last⟩
      split at here
      next => simpa using (Change.mk.inj (Option.some.inj here)).2
      next other =>
        have inside := (List.getElem?_eq_some_iff.1 here).1
        exact absurd same (last log.length inside ⟨k, w⟩ (if_pos rfl))
    · rintro rfl
      refine ⟨log.length, by simpa using same, fun j beyond c here => ?_⟩
      rw [if_neg (Nat.ne_of_gt beyond), List.getElem?_eq_none (Nat.le_of_lt beyond)] at here
      cases here
  next other =>
    constructor
    · rintro ⟨i, here, last⟩
      split at here
      next => exact absurd (Change.mk.inj (Option.some.inj here)).1 other
      next =>
        refine ⟨i, here, fun j after c there => last j after c ?_⟩
        rwa [if_neg (Nat.ne_of_lt (List.getElem?_eq_some_iff.1 there).1)]
    · rintro ⟨i, here, last⟩
      refine ⟨i, by
        rwa [if_neg (Nat.ne_of_lt (List.getElem?_eq_some_iff.1 here).1)], fun j after c there => ?_⟩
      split at there
      next =>
        cases there
        exact other
      next => exact last j after c there

/-! ### Tables keep what their logs leave -/

theorem mem_keys_insert {t : Table α} : key ∈ (t.insert k w).keys ↔ key ∈ t.keys ∨ key = k := by
  rw [← Table.isSome_get?_iff, Table.get?_insert, ← Table.isSome_get?_iff]
  split
  next same => simp [same]
  next other => simp [Ne.symm other]

theorem mem_keys_erase {t : Table α} : key ∈ (t.erase k).keys ↔ key ∈ t.keys ∧ key ≠ k := by
  rw [← Table.isSome_get?_iff, Table.get?_erase, ← Table.isSome_get?_iff]
  split
  next same => simp [same]
  next other => simp [Ne.symm other]

namespace Keeps

variable {t : Table α} {keys : List String} {read read' : String → Option α}

theorem reads (keeps : Keeps log keys read)
    (same : ∀ key ∈ keys, ∀ v, read key = some v → read' key = some v) :
    Keeps log keys read' where
  distinct := keeps.distinct
  members := keeps.members
  order := keeps.order
  values key there := (keeps.values key there).imp fun v last => ⟨last.1, same key there v last.2⟩

/-- A key that is there keeps its place when it is set, and another one comes last. -/
theorem set (keeps : Keeps log t.keys t.get?) (k : String) (w : α) :
    Keeps (log ++ [⟨k, some w⟩]) (t.insert k w).keys (t.insert k w).get? := by
  have member : k ∈ t.keys ↔ ¬∀ j, ¬Opens log k j := by simp [keeps.members k]
  refine ⟨(t.insert k w).nodup_keys, fun key => ?_, ?_, fun key there => ?_⟩
  · rw [mem_keys_insert, keeps.members key]
    simp only [opens_set, exists_or, exists_and_left, exists_eq_left]
    by_cases same : key = k
    · subst same
      simpa using em (∃ i, Opens log key i)
    · simp [same]
  · rw [Table.keys_insert]
    split
    next there =>
      refine keeps.order.imp fun before i j first second => ?_
      rcases opens_set.1 first with first | ⟨-, -, none⟩
      · rcases opens_set.1 second with second | ⟨-, -, none⟩
        · exact before i j first second
        · exact absurd none (member.1 there)
      · exact absurd none (member.1 there)
    next fresh =>
      have old {a : String} {i : Nat} (there : a ∈ t.keys)
          (opens : Opens (log ++ [⟨k, some w⟩]) a i) :
          Opens log a i := by
        refine (opens_set.1 opens).resolve_right ?_
        rintro ⟨rfl, -⟩
        exact fresh there
      refine List.pairwise_append.2 ⟨keeps.order.imp_of_mem ?_, List.pairwise_singleton .., ?_⟩
      · exact fun here there before i j first second =>
          before i j (old here first) (old there second)
      · intro a here b there i j first second
        cases List.mem_singleton.1 there
        rcases opens_set.1 second with again | ⟨-, rfl, -⟩
        · exact absurd ((keeps.members k).2 ⟨j, again⟩) fresh
        · exact (old here first).lt_length
  · rw [Table.get?_insert]
    simp only [lasts_snoc]
    by_cases same : k = key
    · simp [same]
    · simp only [if_neg same]
      exact keeps.values key ((mem_keys_insert.1 there).resolve_right (Ne.symm same))

theorem delete (keeps : Keeps log t.keys t.get?) (k : String) :
    Keeps (log ++ [⟨k, none⟩]) (t.erase k).keys (t.erase k).get? := by
  refine ⟨(t.erase k).nodup_keys, fun key => ?_, ?_, fun key there => ?_⟩
  · simp only [mem_keys_erase, opens_delete, keeps.members key, exists_and_right]
  · refine (keeps.order.sublist (Table.map_fst_eraseEntry_sublist k t.entries)).imp
      fun before i j first second => ?_
    exact before i j (opens_delete.1 first).1 (opens_delete.1 second).1
  · obtain ⟨there, other⟩ := mem_keys_erase.1 there
    simp only [Table.get?_erase, lasts_snoc, if_neg (Ne.symm other)]
    exact keeps.values key there

end Keeps

theorem keeps_replay (log : List (Change α)) :
    Keeps log (log.foldl apply {}).keys (log.foldl apply {}).get? := by
  induction log using List.reverseRecOn with
  | nil =>
    have none (key : String) : ¬∃ i, Opens ([] : List (Change α)) key i :=
      fun ⟨i, opens⟩ => Nat.not_lt_zero i opens.lt_length
    exact ⟨List.nodup_nil, fun key => iff_of_false List.not_mem_nil (none key), List.Pairwise.nil,
      fun _ there => absurd there List.not_mem_nil⟩
  | append_singleton log c ih =>
    obtain ⟨k, value?⟩ := c
    rw [List.foldl_append, List.foldl_cons, List.foldl_nil]
    cases value? with
    | some w => exact ih.set k w
    | none => exact ih.delete k

theorem foldl_ofTable (t : Table α) : (ofTable t).foldl apply {} = t := by
  have entries : ((ofTable t).foldl apply {}).entries = t.entries := by
    rw [ofTable, List.foldl_map]
    exact Table.entries_ofList t.nodup
  generalize (ofTable t).foldl apply {} = made at entries
  cases made
  cases t
  cases entries
  rfl

/-- What was in a table at first counts as set in its order. -/
theorem keeps_foldl (t : Table α) (log : List (Change α)) :
    Keeps (ofTable t ++ log) (log.foldl apply t).keys (log.foldl apply t).get? := by
  have all := keeps_replay (ofTable t ++ log)
  rwa [List.foldl_append, foldl_ofTable] at all

end Change

end Scriptlet
