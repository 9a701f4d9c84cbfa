import Scriptlet.Proofs.Value.Chain

/-!
Heaps with more containers.

A heap that only gets new arrays and objects reads as before at all values that it had. Main
statement: `Heap.Extends.get?_eq`.
-/

namespace Scriptlet

namespace Heap

variable {h h' h'' : Heap} {r : ObjectRef} {v w : Value} {key : String}

/-- A value that does not refer to an array or an object that is not there. -/
def Has (h : Heap) : Value → Prop
  | .array r => r.index < h.arrays.size
  | .object r => r ∈ h.existing
  | _ => True

/-- Whatever the containers of a heap hold is there, and so is what they inherit from, which comes
to an end. -/
structure Closed (h : Heap) : Prop where
  elements : ∀ r, ∀ v ∈ (h.elements r).toList, h.Has v
  props : ∀ r, ∀ v ∈ (h.object r).props.values, h.Has v
  own : ∀ r f, h.function? r = some f → ∀ v ∈ f.props.values, h.Has v
  ways : ∀ r ∈ h.existing, ∃ path, h.Path r path ∧ ∀ x ∈ path, x ∈ h.existing

/-- All that there was is as it was. -/
structure Extends (h h' : Heap) : Prop where
  arrays : h.arrays.toList <+: h'.arrays.toList
  objects : h.objects.toList <+: h'.objects.toList
  functions : h'.functions = h.functions

namespace Extends

theorem refl (h : Heap) : h.Extends h :=
  ⟨List.prefix_rfl, List.prefix_rfl, rfl⟩

theorem trans (first : h.Extends h') (second : h'.Extends h'') : h.Extends h'' :=
  ⟨first.arrays.trans second.arrays, first.objects.trans second.objects,
    second.functions.trans first.functions⟩

theorem newArray (h : Heap) (elements : Array Value) : h.Extends (h.newArray elements).2 :=
  ⟨⟨[elements], by simp [Heap.newArray]⟩, List.prefix_rfl, rfl⟩

theorem newObject (h : Heap) (o : Object) : h.Extends (h.newObject o).2 :=
  ⟨List.prefix_rfl, ⟨[o], by simp [Heap.newObject]⟩, rfl⟩

section

variable (more : h.Extends h')

include more

theorem arrays_le : h.arrays.size ≤ h'.arrays.size :=
  more.arrays.length_le

theorem objects_le : h.objects.size ≤ h'.objects.size :=
  more.objects.length_le

theorem existing : h.existing ⊆ h'.existing :=
  fun _ there => Nat.lt_of_lt_of_le there more.objects_le

theorem elements_eq {r : ArrayRef} (there : r.index < h.arrays.size) :
    h'.elements r = h.elements r := by
  obtain ⟨added, same⟩ := more.arrays
  unfold elements
  rw [← Array.getElem?_toList, ← Array.getElem?_toList, ← same, List.getElem?_append_left there]

theorem object_eq (there : r ∈ h.existing) : h'.object r = h.object r := by
  obtain ⟨added, same⟩ := more.objects
  unfold object
  rw [← Array.getElem?_toList, ← Array.getElem?_toList, ← same, List.getElem?_append_left there]

theorem function?_eq (r : FunctionRef) : h'.function? r = h.function? r := by
  rw [function?, function?, more.functions]

/-- An object inherits as before, and from nothing new. -/
theorem lookup?_eq (closed : h.Closed) (there : r ∈ h.existing) (key : String) :
    h'.lookup? r key = h.lookup? r key := by
  obtain ⟨path, finite, inside⟩ := closed.ways r there
  have kept (x : ObjectRef) (on : x ∈ path) : h'.object x = h.object x :=
    more.object_eq (inside x on)
  have finite' : h'.Path r path := finite.congr fun x on => by rw [kept x on]
  rw [lookup?, lookup?, finite'.chain_eq fun x on => more.existing (inside x on),
    finite.chain_eq inside, List.map_congr_left kept]

theorem get?_eq (closed : h.Closed) (there : h.Has v) (key : String) :
    h'.get? v key = h.get? v key := by
  cases v with
  | array r => simp only [get?, more.elements_eq there]
  | object r => exact more.lookup?_eq closed there key
  | function r => simp only [get?, more.function?_eq]
  | _ => rfl

end

end Extends

/-! ### What is read is there -/

theorem Closed.lookup? (closed : h.Closed) (there : r ∈ h.existing)
    (found : h.lookup? r key = some v) :
    h.Has v := by
  obtain ⟨path, finite, inside⟩ := closed.ways r there
  rw [Heap.lookup?, finite.chain_eq inside] at found
  obtain ⟨o, on, here⟩ := List.exists_of_findSome?_eq_some found
  obtain ⟨x, -, rfl⟩ := List.mem_map.1 on
  exact closed.props x v (Table.mem_values_of_get? here)

theorem Closed.get? (closed : h.Closed) (there : h.Has v) (found : h.get? v key = some w) :
    h.Has w := by
  cases v with
  | array r =>
    simp only [Heap.get?] at found
    split at found
    · cases found
      trivial
    · obtain ⟨i, -, found⟩ := Option.bind_eq_some_iff.1 found
      exact closed.elements r w (Array.mem_toList_iff.2 (Array.mem_of_getElem? found))
  | object r => exact closed.lookup? there found
  | string t =>
    simp only [Heap.get?] at found
    split at found
    · cases found
      trivial
    · obtain ⟨i, -, found⟩ := Option.bind_eq_some_iff.1 found
      obtain ⟨c, -, rfl⟩ := Option.map_eq_some_iff.1 found
      trivial
  | function r =>
    obtain ⟨f, own, found⟩ := Option.bind_eq_some_iff.1 found
    unfold FunctionObject.get? at found
    split at found
    next here =>
      cases found
      exact closed.own r f own _ (Table.mem_values_of_get? here)
    next =>
      split at found
      · cases found
        trivial
      · split at found
        · cases found
          trivial
        · cases found
  | _ => cases found

/-! ### Own keys -/

theorem indexKey_injective {i j : Nat} (same : indexKey i = indexKey j) : i = j := by
  have digits : Nat.toDigits 10 i = Nat.toDigits 10 j := by
    have lists := congrArg String.toList same
    simpa [indexKey] using lists
  have values := congrArg (Nat.ofDigitChars 10 · 0) digits
  simpa using values

theorem nodup_ownKeys (h : Heap) (v : Value) : (h.ownKeys v).Nodup := by
  have indices (n : Nat) : ((List.range n).map indexKey).Nodup :=
    List.Pairwise.map _ (fun _ _ apart same => apart (indexKey_injective same)) List.nodup_range
  cases v with
  | array | string => exact indices _
  | object r => exact (h.object r).props.nodup
  | function r =>
    simp only [ownKeys]
    cases h.function? r with
    | none => exact List.nodup_nil
    | some f => exact f.props.nodup
  | _ => exact List.nodup_nil

theorem nodup_ownEntries (h : Heap) (v : Value) : ((h.ownEntries v).map (·.1)).Nodup := by
  have keys : (h.ownEntries v).map (·.1) = h.ownKeys v := by simp [ownEntries, Function.comp_def]
  exact keys ▸ nodup_ownKeys h v

end Heap

end Scriptlet
