import Scriptlet.Proofs.Eval.Whole
import Scriptlet.Proofs.Value.Chain

/-!
What objects inherit from while scripts run.

An object gets what it inherits from when it is made, and keeps it. As nothing can be mentioned that
is not there yet, no object inherits from a later one, and a new object only adds a step to a way up
that was finite before.
-/

namespace Scriptlet

open Mentions (mentions)

variable {k : Knowledge}

namespace Known

/-! ### Parts of a state -/

theorem modify {α : Type} [Mentions α] {xs : Array α} {n : Nat} {f : α → α} (known : Known k xs)
    (each : ∀ a, Known (k.plus a) (f a)) : Known k (xs.modify n f) := by
  refine ⟨fun r ⟨b, there, member⟩ => ?_⟩
  obtain ⟨i, inside, rfl⟩ := Array.getElem_of_mem there
  simp only [Array.getElem_modify, Array.size_modify] at inside member
  have old : Known k xs[i] := known.of_mem_array (Array.getElem_mem inside)
  split at member
  · exact ((each xs[i]).more (Knowledge.plus_subset subset_rfl old)).subset member
  · exact old.subset member

theorem heap_iff {h : Heap} :
    Known k h ↔ Known k h.arrays ∧ Known k h.objects ∧ Known k h.functions := by
  constructor
  · intro known
    exact ⟨known.less (Set.subset_union_left.trans Set.subset_union_left),
      known.less (Set.subset_union_right.trans Set.subset_union_left),
        known.less Set.subset_union_right⟩
  · rintro ⟨arrays, objects, functions⟩
    exact ⟨Set.union_subset (Set.union_subset arrays.subset objects.subset) functions.subset⟩

theorem arena_iff {a : Arena} : Known k a ↔ ∀ x, Known k (a.record x).bindings := by
  constructor
  · intro known x
    have records : Known k a.records := ⟨known.subset⟩
    cases found : a.records[x.index]? with
    | none =>
      simp only [Arena.record, found]
      exact emptyTable
    | some record =>
      simp only [Arena.record, found]
      exact ⟨(records.of_mem_array (Array.mem_of_getElem? found)).subset⟩
  · intro all
    constructor
    rintro r ⟨record, there, member⟩
    obtain ⟨i, inside, rfl⟩ := Array.getElem_of_mem there
    have here := all ⟨i⟩
    simp only [Arena.record, Array.getElem?_eq_getElem inside, Option.getD_some] at here
    exact here.subset member

theorem new (realm : Nat) : Known k (Arena.new realm) := by
  refine arena_iff.2 fun x => ?_
  by_cases root : x = Arena.root
  · subst root
    exact emptyTable
  · rw [Arena.record_new root]
    exact emptyTable

/-- Scopes that have no bindings but those that they had before. -/
theorem of_bindings {a b : Arena} (known : Known k a)
    (fewer : ∀ x, (b.record x).bindings = (a.record x).bindings ∨ (b.record x).bindings = {}) :
    Known k b := by
  refine arena_iff.2 fun x => ?_
  rcases fewer x with same | none
  · exact same ▸ arena_iff.1 known x
  · exact none ▸ emptyTable

theorem bind {a : Arena} {id : ScopeId} {name : String} {b : Binding} (known : Known k a)
    (value : Known k b.value) : Known k (a.bind id name b) := by
  refine arena_iff.2 fun x => ?_
  have here := arena_iff.1 known x
  unfold Arena.bind
  rw [Arena.record_modifyRecord]
  split
  · have : Known k b := ⟨value.subset⟩
    exact insert
  · exact here

theorem edit {a b : Arena} (known : Known k a) (edit : a.Edit (Known k) b) : Known k b := by
  obtain ⟨id, name, set, value, rfl⟩ := edit.bind_eq
  exact known.bind value

theorem captured {a : Arena} (known : Known k a) (id : ScopeId) (alive : Handle → Bool) :
    Known k (a.capture id alive).2 :=
  known.of_bindings fun x => .inl ((Arena.SameSlots.capture a id alive).bindings x)

theorem opened {a : Arena} (known : Known k a) (kind : ScopeKind) (parent : ScopeId)
    (alive : Handle → Bool) : Known k (a.push kind parent alive).2 :=
  (known.captured parent alive).of_bindings fun _ =>
    (Arena.bindings_openUnder ..).imp_right And.right

theorem cleared {a b : Arena} (known : Known k a) (clears : a.Clears b) : Known k b :=
  known.of_bindings fun x => (clears.bindings x).imp_right And.right

end Known

/-! ### Heaps -/

namespace Heap

variable {h h' : Heap} {r : ObjectRef} {path : List ObjectRef}

/-- Objects are only added, and keep what they inherit from. -/
structure Grows (h h' : Heap) : Prop where
  size : h.objects.size ≤ h'.objects.size
  prototype : ∀ r ∈ h.existing, (h'.object r).prototype = (h.object r).prototype

namespace Grows

theorem refl (h : Heap) : h.Grows h :=
  ⟨Nat.le_refl _, fun _ _ => rfl⟩

theorem of_eq (same : h' = h) : h.Grows h' :=
  same ▸ .refl h

theorem existing (grows : h.Grows h') : h.existing ⊆ h'.existing :=
  fun _ there => Nat.lt_of_lt_of_le there grows.size

theorem trans {h'' : Heap} (first : h.Grows h') (second : h'.Grows h'') : h.Grows h'' :=
  ⟨Nat.le_trans first.size second.size, fun r there =>
    (second.prototype r (first.existing there)).trans (first.prototype r there)⟩

end Grows

/-- Nothing refers to an object that is not there, and every object has a finite way up. -/
structure Intact (h : Heap) : Prop where
  known : Known h.existing h
  finite : ∀ r ∈ h.existing, ∃ path, h.Path r path

namespace Intact

theorem empty : Heap.Intact {} := by
  refine ⟨Known.heap_iff.2 ⟨Known.emptyArray, Known.emptyArray, Known.emptyArray⟩,
    fun r there => ?_⟩
  exact absurd there (Nat.not_lt_zero _)

/-- A way up goes along objects that there are. -/
theorem inside (intact : h.Intact) (finite : h.Path r path) (there : r ∈ h.existing) :
    ∀ x ∈ path, x ∈ h.existing := by
  induction finite with
  | last => simpa using there
  | @heir r p path above _ ih =>
    have known := intact.known
    have parent : Known h.existing p := .of_some above
    intro x on
    rcases List.mem_cons.1 on with rfl | on
    · exact there
    · exact ih (parent.subset rfl) x on

/-- Chains are as they were where no objects are added and none inherits from another one than
before. -/
theorem same (intact : h.Intact) (size : h'.objects.size = h.objects.size)
    (prototype : ∀ r, (h'.object r).prototype = (h.object r).prototype)
    (known : Known h.existing h') : h'.Intact ∧ h.Grows h' := by
  have existing : h'.existing = h.existing := by simp only [Heap.existing, size]
  refine ⟨⟨existing.symm ▸ known, fun r there => ?_⟩, size.symm.le, fun r _ => prototype r⟩
  obtain ⟨path, finite⟩ := intact.finite r (existing ▸ there)
  exact ⟨path, finite.congr fun x _ => prototype x⟩

theorem newFunction (intact : h.Intact) (f : FunctionObject) (known : Known h.existing f) :
    (h.newFunction f).2.Intact ∧ h.Grows (h.newFunction f).2 := by
  obtain ⟨arrays, objects, functions⟩ := Known.heap_iff.1 intact.known
  exact intact.same rfl (fun _ => rfl) (Known.heap_iff.2 ⟨arrays, objects, Known.push⟩)

/-- A new object starts its way up at an object that was there before, or has none above it. -/
theorem newObject (intact : h.Intact) (o : Object) (known : Known h.existing o) :
    (h.newObject o).2.Intact ∧ h.Grows (h.newObject o).2 := by
  have old (r : ObjectRef) (there : r ∈ h.existing) : (h.newObject o).2.object r = h.object r := by
    have apart : r.index ≠ h.objects.size := Nat.ne_of_lt there
    simp [Heap.newObject, object, Array.getElem?_push, apart]
  have grows : h.Grows (h.newObject o).2 :=
    ⟨by simp [Heap.newObject], fun r there => by rw [old r there]⟩
  have kept (r : ObjectRef) (there : r ∈ h.existing) : ∃ path, (h.newObject o).2.Path r path := by
    obtain ⟨path, finite⟩ := intact.finite r there
    exact ⟨path, finite.congr fun x on => by rw [old x (intact.inside finite there x on)]⟩
  obtain ⟨arrays, objects, functions⟩ := Known.heap_iff.1 (intact.known.more grows.existing)
  have more := known.more grows.existing
  refine ⟨⟨Known.heap_iff.2 ⟨arrays, Known.push, functions⟩, fun r there => ?_⟩, grows⟩
  by_cases new : r.index < h.objects.size
  · exact kept r new
  · have last : r.index = h.objects.size := by
      have inside : r.index < (h.objects.push o).size := there
      simp only [Array.size_push] at inside
      omega
    have made : (h.newObject o).2.object r = o := by simp [Heap.newObject, object, last]
    cases parent : o.prototype with
    | none => exact ⟨[r], .last (by rw [made, parent])⟩
    | some p =>
      have parents : Known h.existing p := .of_some parent
      obtain ⟨path, finite⟩ := kept p (parents.subset rfl)
      exact ⟨r :: path, .heir (by rw [Inherits, made, parent]) finite⟩

theorem modifyObject (intact : h.Intact) {f : Table Value → Table Value}
    (each : ∀ t, Known (Knowledge.plus h.existing t) (f t)) :
    (h.modifyObject r fun o => { o with props := f o.props }).Intact ∧
      h.Grows (h.modifyObject r fun o => { o with props := f o.props }) := by
  obtain ⟨arrays, objects, functions⟩ := Known.heap_iff.1 intact.known
  have modified : Known h.existing
      (h.objects.modify r.index fun o => { o with props := f o.props }) := by
    refine objects.modify fun o => ?_
    have own : Known (Knowledge.plus h.existing o) o.props := inferInstance
    have props := (each o.props).more (Knowledge.plus_subset Knowledge.subset_plus own)
    exact Known.newObject
  refine intact.same (by simp [Heap.modifyObject]) (fun x => ?_)
    (Known.heap_iff.2 ⟨arrays, modified, functions⟩)
  · simp only [Heap.modifyObject, object, Array.getElem?_modify]
    split
    · cases h.objects[x.index]? <;> rfl
    · rfl

/-- Whatever a script does to a heap leaves every chain finite, and those that there were
unchanged. -/
theorem step (intact : h.Intact) (step : h.Step existing h') : h'.Intact ∧ h.Grows h' := by
  obtain ⟨arrays, objects, functions⟩ := Known.heap_iff.1 intact.known
  cases step with
  | newArray elements known =>
    exact intact.same rfl (fun _ => rfl) (Known.heap_iff.2 ⟨Known.push, objects, functions⟩)
  | newObject o known => exact intact.newObject o known
  | newNative name arity op known =>
    exact intact.newFunction _
      ⟨Set.union_subset known.subset (Known.emptyTable (α := Value)).subset⟩
  | setArray r f each =>
    exact intact.same rfl (fun _ => rfl) (Known.heap_iff.2 ⟨arrays.modify each, objects, functions⟩)
  | setObject r f each => exact intact.modifyObject each
  | setFunction r f each =>
    have modified : Known h.existing
        (h.functions.modify r.index fun g => { g with props := f g.props }) := by
      refine functions.modify fun g => ?_
      have own : Known (Knowledge.plus h.existing g) g.props := inferInstance
      have props := (each g.props).more (Knowledge.plus_subset Knowledge.subset_plus own)
      exact ⟨Set.union_subset (Known.callable (f := g)).subset props.subset⟩
    exact intact.same rfl (fun _ => rfl) (Known.heap_iff.2 ⟨arrays, objects, modified⟩)

end Intact

end Heap

/-! ### Evaluations -/

/-- Nothing in a state refers to an object that is not there, and every object has a finite way
up. -/
structure State.Intact (s : State) : Prop where
  heap : s.heap.Intact
  scopes : Known s.heap.existing s.scopes

namespace State

variable {s t : State} {id : ScopeId}

theorem Intact.closed (intact : s.Intact) (closed : s.closed id = some t) : t.Intact := by
  have same := heap_closed closed
  refine ⟨same ▸ intact.heap, ?_⟩
  rw [same]
  exact intact.scopes.cleared (clears_closed closed)

theorem Intact.returned (intact : s.Intact) : s.returned.Intact :=
  ⟨intact.heap, intact.scopes⟩

end State

/-- States stay intact, and objects keep what they inherit from. -/
def ancestry : Contract where
  sound := State.Intact
  live _ _ := True
  kept s t := s.heap.Grows t.heap
  known := Heap.existing
  fine _ := True
  stops _ := False
  cut _ := False
  raised _ := True

instance : ancestry.Complete :=
  ⟨fun _ => id, fun _ => id, id⟩

instance : ancestry.Lawful where
  refl s := .refl s.heap
  trans _ _ _ := .trans
  live_kept _ _ _ _ _ := trivial
  live_root _ _ := trivial
  known_kept _ _ kept := kept.existing
  known_stored _ sound := ⟨Set.union_subset sound.heap.known.subset sound.scopes.subset⟩
  known_there _ _ inside := inside
  child _ _ _ _ _ := trivial
  assigned _ absurd := absurd.elim
  heap s h sound step _ := by
    obtain ⟨intact, grows⟩ := sound.heap.step step
    exact ⟨⟨intact, sound.scopes.more grows.existing⟩, grows⟩
  console s _ sound := ⟨⟨sound.heap, sound.scopes⟩, .refl s.heap⟩
  edit s _ sound edit := ⟨⟨sound.heap, sound.scopes.edit edit⟩, .refl s.heap⟩
  closure s name fn env sound _ _ := by
    have known (η : Handle) : Known s.heap.existing
        ({ name := name, callable := .closure fn η s.realm.id } : FunctionObject) :=
      ⟨Set.union_subset (Set.empty_subset _) (Known.emptyTable (α := Value)).subset⟩
    obtain ⟨intact, grows⟩ := sound.heap.newFunction _ (known (s.scopes.capture env s.isAlive).1)
    exact ⟨⟨intact, (sound.scopes.captured env s.isAlive).more grows.existing⟩, grows⟩
  opened s env sound _ := ⟨⟨sound.heap, sound.scopes.opened .block env s.isAlive⟩, trivial⟩
  closed _ _ _ _ _ _ sound kept closed :=
    ⟨sound.closed closed, kept.trans (.of_eq (State.heap_closed closed))⟩
  called s r fn η sound _ :=
    ⟨trivial, ⟨sound.heap, sound.scopes.opened .function η.scope _⟩, trivial⟩
  returned _ _ _ _ t u _ _ sound kept closed :=
    have same : u.heap = t.heap := State.heap_closed closed
    ⟨(sound.closed closed).returned, kept.trans (.of_eq same)⟩
  scripted _ _ := trivial
  located _ _ _ _ := trivial
  stuck _ _ _ := .inr fun _ => trivial

end Scriptlet
