import Mathlib.Data.List.Perm.Subperm
import Mathlib.Logic.Relation
import Scriptlet.Value.Property

/-!
The objects above an object, and the loops that visit them.

A loop that goes from an object to what it inherits from keeps no record of where it has been, so it
only ends where the way up does. The functions of a heap count their steps instead. On a finite way
of objects that there are, the count does not run out: they answer what the loops end with.
-/

namespace Scriptlet

namespace Heap

variable {h h' : Heap} {r p x : ObjectRef} {path : List ObjectRef}

/-- The objects that there are. -/
def existing (h : Heap) : Set ObjectRef :=
  {r | r.index < h.objects.size}

/-- One object inherits from another one directly. -/
def Inherits (h : Heap) (r p : ObjectRef) : Prop :=
  (h.object r).prototype = some p

/-- The objects from one of them up to the last one that it inherits from. -/
inductive Path (h : Heap) : ObjectRef → List ObjectRef → Prop where
  | last {r : ObjectRef} : (h.object r).prototype = none → Path h r [r]
  | heir {r p : ObjectRef} {path : List ObjectRef} : h.Inherits r p → Path h p path →
      Path h r (r :: path)

namespace Path

/-- No object on a finite way inherits from itself. -/
theorem acyclic (finite : h.Path r path) : ¬Relation.TransGen h.Inherits r r := by
  induction finite with
  | last none =>
    intro cycle
    obtain ⟨q, first, -⟩ := Relation.TransGen.head'_iff.1 cycle
    simp [Inherits, none] at first
  | @heir r p path above _ ih =>
    intro cycle
    obtain ⟨q, first, back⟩ := Relation.TransGen.head'_iff.1 cycle
    obtain rfl : p = q := Option.some.inj (above.symm.trans first)
    exact ih (.tail' back above)

theorem reaches (finite : h.Path r path) (on : x ∈ path) :
    Relation.ReflTransGen h.Inherits r x := by
  induction finite with
  | last =>
    obtain rfl := List.mem_singleton.1 on
    exact .refl
  | heir above _ ih =>
    rcases List.mem_cons.1 on with rfl | on
    · exact .refl
    · exact .head above (ih on)

theorem nodup (finite : h.Path r path) : path.Nodup := by
  induction finite with
  | last => simp
  | heir above rest ih =>
    refine List.nodup_cons.2 ⟨fun again => ?_, ih⟩
    exact (heir above rest).acyclic (.head' above (rest.reaches again))

theorem length_le (finite : h.Path r path) (there : ∀ x ∈ path, x ∈ h.existing) :
    path.length ≤ h.objects.size := by
  have inside : path.map ObjectRef.index ⊆ List.range h.objects.size := by
    intro n on
    obtain ⟨x, member, rfl⟩ := List.mem_map.1 on
    exact List.mem_range.2 (there x member)
  have distinct : (path.map ObjectRef.index).Nodup :=
    List.Pairwise.map _ (fun _ _ apart same => apart (congrArg ObjectRef.mk same)) finite.nodup
  simpa using (distinct.subperm inside).length_le

/-- Heaps whose objects inherit from the same ones have the same ways up. -/
theorem congr (finite : h.Path r path)
    (same : ∀ x ∈ path, (h'.object x).prototype = (h.object x).prototype) : h'.Path r path := by
  induction finite with
  | last none => exact .last ((same _ List.mem_cons_self).trans none)
  | heir above _ ih =>
    exact .heir ((same _ List.mem_cons_self).trans above)
      (ih fun x on => same x (List.mem_cons_of_mem _ on))

theorem chainFrom_eq (finite : h.Path r path) {fuel : Nat} (enough : path.length ≤ fuel) :
    h.chainFrom fuel (some r) = path.map h.object := by
  induction finite generalizing fuel with
  | last none =>
    obtain ⟨fuel, rfl⟩ := Nat.exists_eq_succ_of_ne_zero (Nat.ne_of_gt enough)
    cases fuel with
    | zero => simp [chainFrom]
    | succ => simp [chainFrom, none]
  | heir above _ ih =>
    obtain ⟨fuel, rfl⟩ := Nat.exists_eq_succ_of_ne_zero (Nat.ne_of_gt (Nat.zero_lt_of_lt enough))
    rw [chainFrom, above, ih (Nat.le_of_succ_le_succ enough), List.map_cons]

/-- The chain of an object is all of the way up. -/
theorem chain_eq (finite : h.Path r path) (there : ∀ x ∈ path, x ∈ h.existing) :
    h.chain r = path.map h.object :=
  finite.chainFrom_eq (finite.length_le there)

theorem descendsFrom_eq (finite : h.Path r path) (target : ObjectRef) {fuel : Nat}
    (enough : path.length ≤ fuel) :
    h.descendsFrom target fuel r = path.tail.any (· == target) := by
  induction finite generalizing fuel with
  | last none =>
    obtain ⟨fuel, rfl⟩ := Nat.exists_eq_succ_of_ne_zero (Nat.ne_of_gt enough)
    simp [descendsFrom, none]
  | heir above rest ih =>
    obtain ⟨fuel, rfl⟩ := Nat.exists_eq_succ_of_ne_zero (Nat.ne_of_gt (Nat.zero_lt_of_lt enough))
    have above : (h.object _).prototype = some _ := above
    simp only [descendsFrom, above, ih (Nat.le_of_succ_le_succ enough)]
    cases rest with
    | last => simp
    | heir => simp

end Path

end Heap

/-! ### Loops -/

/-- A loop up from an object: what it does at each one, with or without going on, and what it
answers past the last one. -/
structure Ascent (σ β : Type) where
  visit : σ → ObjectRef → Except β σ
  past : σ → β

namespace Ascent

variable {σ β : Type} {h : Heap} {loop : Ascent σ β} {r : ObjectRef} {path : List ObjectRef}

/-- A loop at some object, or past all of them, ends with an answer. -/
inductive Ends (loop : Ascent σ β) (h : Heap) : σ → Option ObjectRef → β → Prop where
  | past (acc : σ) : Ends loop h acc none (loop.past acc)
  | stops {acc : σ} {r : ObjectRef} {answer : β} :
      loop.visit acc r = .error answer → Ends loop h acc (some r) answer
  | goes {acc acc' : σ} {r : ObjectRef} {answer : β} : loop.visit acc r = .ok acc' →
      Ends loop h acc' (h.object r).prototype answer → Ends loop h acc (some r) answer

/-- What a loop makes of the objects on its way. -/
def along (loop : Ascent σ β) (acc : σ) : List ObjectRef → β
  | [] => loop.past acc
  | r :: rest =>
    match loop.visit acc r with
    | .error answer => answer
    | .ok acc => loop.along acc rest

/-- On a finite way every loop ends. -/
theorem ends_along (finite : h.Path r path) (acc : σ) :
    loop.Ends h acc (some r) (loop.along acc path) := by
  induction finite generalizing acc with
  | last none =>
    unfold along
    split
    · exact .stops ‹_›
    · exact .goes ‹_› (by rw [none]; exact .past _)
  | heir above _ ih =>
    unfold along
    split
    · exact .stops ‹_›
    · have above : (h.object _).prototype = some _ := above
      exact .goes ‹_› (by rw [above]; exact ih _)

/-- So does every loop that starts above the object. -/
theorem ends_above (finite : h.Path r path) (acc : σ) :
    loop.Ends h acc (h.object r).prototype (loop.along acc path.tail) := by
  cases finite with
  | last none =>
    rw [none]
    exact .past acc
  | heir above rest =>
    have above : (h.object _).prototype = some _ := above
    rw [above]
    exact ends_along rest acc

/-- Looks for the value of a key. -/
def lookup (h : Heap) (key : String) : Ascent Unit (Option Value) where
  visit _ r :=
    match (h.object r).props.get? key with
    | some v => .error (some v)
    | none => .ok ()
  past _ := none

/-- Looks for an object that has a key. -/
def inherits (h : Heap) (key : String) : Ascent Unit Bool where
  visit _ r := if (h.object r).props.contains key then .error true else .ok ()
  past _ := false

/-- Adds the keys that are not there yet. -/
def enumerableKeys (h : Heap) : Ascent (List String) (List String) where
  visit keys r := .ok (Heap.addKeys keys (h.object r).props.keys)
  past keys := keys

/-- Looks for an object. -/
def descendsFrom (target : ObjectRef) : Ascent Unit Bool where
  visit _ r := if r = target then .error true else .ok ()
  past _ := false

theorem along_lookup (key : String) :
    (lookup h key).along () path = (path.map h.object).findSome? (·.props.get? key) := by
  induction path with
  | nil => rfl
  | cons r rest ih =>
    rw [List.map_cons, List.findSome?_cons, ← ih]
    cases found : (h.object r).props.get? key with
    | some v => simp [along, lookup, found]
    | none => simp [along, lookup, found]

theorem along_inherits (key : String) :
    (inherits h key).along () path = (path.map h.object).any (·.props.contains key) := by
  induction path with
  | nil => rfl
  | cons r rest ih =>
    rw [List.map_cons, List.any_cons, ← ih]
    cases has : (h.object r).props.contains key with
    | true => simp [along, inherits, has]
    | false => simp [along, inherits, has]

theorem along_enumerableKeys (keys : List String) :
    (enumerableKeys h).along keys path =
      (path.map h.object).foldl (fun ks o => Heap.addKeys ks o.props.keys) keys := by
  induction path generalizing keys with
  | nil => rfl
  | cons r rest ih => exact ih _

theorem along_descendsFrom (target : ObjectRef) :
    (descendsFrom target).along () path = path.any (· == target) := by
  induction path with
  | nil => rfl
  | cons r rest ih =>
    rw [List.any_cons, ← ih]
    by_cases same : r = target
    · simp [along, descendsFrom, same]
    · simp [along, descendsFrom, same]

end Ascent

/-- Keys without repetition are added to none as they are. -/
theorem Heap.addKeys_nil {keys : List String} (distinct : keys.Nodup) : addKeys [] keys = keys := by
  suffices all : ∀ start : List String, (start ++ keys).Nodup →
    addKeys start keys = start ++ keys from
    all [] distinct
  intro start
  induction keys generalizing start with
  | nil => simp [addKeys]
  | cons k rest ih =>
    intro distinct
    have fresh : k ∉ start := fun member =>
      (List.nodup_append.1 distinct).2.2 k member k List.mem_cons_self rfl
    have later : (start ++ [k] ++ rest).Nodup := by simpa using distinct
    have step : addKeys start (k :: rest) = addKeys (start ++ [k]) rest := by
      simp [addKeys, fresh]
    rw [step, ih (List.nodup_cons.1 (List.nodup_append.1 distinct).2.1).2 _ later]
    simp

/-- The four loops that go up from an object all end, with what the functions of the heap answer.
The last two start with the object's own keys and above the object. -/
structure Heap.LoopsEnd (h : Heap) (r : ObjectRef) : Prop where
  lookup : ∀ key, (Ascent.lookup h key).Ends h () (some r) (h.lookup? r key)
  inherits : ∀ key, (Ascent.inherits h key).Ends h () (some r) (h.inherits r key)
  enumerableKeys : (Ascent.enumerableKeys h).Ends h (h.ownKeys (.object r)) (h.object r).prototype
    (h.enumerableKeys (.object r))
  descendsFrom : ∀ target, (Ascent.descendsFrom target).Ends h () (h.object r).prototype
    (h.descendsFrom target h.objects.size r)

theorem Heap.Path.loopsEnd {h : Heap} {r : ObjectRef} {path : List ObjectRef}
    (finite : h.Path r path)
    (there : ∀ x ∈ path, x ∈ h.existing) : h.LoopsEnd r := by
  have chain := finite.chain_eq there
  refine ⟨fun key => ?_, fun key => ?_, ?_, fun target => ?_⟩
  · have answer : h.lookup? r key = (Ascent.lookup h key).along () path := by
      rw [Ascent.along_lookup, lookup?, chain]
    exact answer ▸ Ascent.ends_along finite ()
  · have answer : h.inherits r key = (Ascent.inherits h key).along () path := by
      rw [Ascent.along_inherits, Heap.inherits, chain]
    exact answer ▸ Ascent.ends_along finite ()
  · have start : path = r :: path.tail := by cases finite <;> rfl
    have answer : h.enumerableKeys (.object r) =
        (Ascent.enumerableKeys h).along (h.ownKeys (.object r)) path.tail := by
      rw [Ascent.along_enumerableKeys, Heap.enumerableKeys, chain]
      conv_lhs => rw [start]
      have own : addKeys [] (h.object r).props.keys = h.ownKeys (.object r) :=
        addKeys_nil (h.object r).props.nodup
      rw [List.map_cons, List.foldl_cons, own]
    exact answer ▸ Ascent.ends_above finite _
  · have answer : h.descendsFrom target h.objects.size r =
        (Ascent.descendsFrom target).along () path.tail := by
      rw [Ascent.along_descendsFrom, finite.descendsFrom_eq target (finite.length_le there)]
    exact answer ▸ Ascent.ends_above finite ()

end Scriptlet
