import Scriptlet.Proofs.Eval.Binding
import Scriptlet.Proofs.Value.Index

/-!
What the parts of a pattern stand for.

The parts of a pattern go with projections of the value that it is matched with: with values that
are read from it, and with containers that are made of several of them. Main statements:
`Source.make_realizes`, and `Source.iterate_eq`, `Source.getProperty_eq` and `Source.ownEntries_eq`,
by which a projection reads the same whenever it is made.
-/

namespace Scriptlet

open Eval

/-- What a pattern is matched with: a value, a new array of values, or a new object with some
properties. -/
inductive Source where
  | value (v : Value)
  | items (vs : List Value)
  | entries (es : List (String × Value))

namespace Source

variable {base h h' : Heap} {src : Source} {s t : State} {v w w' : Value} {key : String}

def make : Source → Eval Value
  | .value v => return v
  | .items vs => newArray vs.toArray
  | .entries es => do return .object (← newObject { props := .ofList es })

/-- What a computation answers about a source. -/
def answer {α : Type} (src : Source) (s : State) (ask : Value → Eval α) : Option α :=
  match (src.make >>= ask) s with
  | .ok a _ => some a
  | _ => none

/-- The elements of an array, or the characters of a text. -/
def elements (src : Source) (s : State) : List Value :=
  match src with
  | .value (.array r) => (s.heap.elements r).toList
  | .value (.string text) => Heap.characters text
  | .items vs => vs
  | _ => []

/-- What the evaluator reads from a source under a key. -/
def property (src : Source) (s : State) (key : String) : Value :=
  (src.answer s (getProperty · key)).getD .undefined

/-- The own properties of a source in their order: those of an object or a function, or the elements
of an array or a text under their places. -/
def own (src : Source) (s : State) : List (String × Value) :=
  match src with
  | .value (.object r) => (s.heap.object r).props.entries
  | .value (.function r) => ((s.heap.function? r).map (·.props.entries)).getD []
  | .value (.array _) | .value (.string _) | .items _ => Heap.placed (src.elements s)
  | .value _ => []
  | .entries es => es

/-- Whether a source is an array or a text. -/
def isIterable : Source → Bool
  | .value (.array _) | .value (.string _) | .items _ => true
  | _ => false

def isNullish : Source → Bool
  | .value v => v.isNullish
  | _ => false

/-- A value is what a source stood for on a heap, on one with more containers. -/
def Realized (base h : Heap) : Source → Value → Prop
  | .value v, w => w = v
  | .items vs, w => ∃ r, w = .array r ∧ base.arrays.size ≤ r.index ∧ r.index < h.arrays.size ∧
      (h.elements r).toList = vs
  | .entries es, w => ∃ r, w = .object r ∧ base.objects.size ≤ r.index ∧ r ∈ h.existing ∧
      (h.object r).props.entries = es ∧ (h.object r).prototype = none

/-- The values of a source are there, and its keys are distinct. -/
def Sound (h : Heap) : Source → Prop
  | .value v => h.Has v
  | .items vs => ∀ v ∈ vs, h.Has v
  | .entries es => (∀ e ∈ es, h.Has e.2) ∧ (es.map (·.1)).Nodup

theorem Realized.mono (realized : Realized base h src w) (more : h.Extends h') :
    Realized base h' src w := by
  cases src with
  | value => exact realized
  | items =>
    obtain ⟨r, same, fresh, there, elements⟩ := realized
    exact ⟨r, same, fresh,
      Nat.lt_of_lt_of_le there more.arrays_le, by rw [more.elements_eq there, elements]⟩
  | entries =>
    obtain ⟨r, same, fresh, there, entries, alone⟩ := realized
    refine ⟨r, same, fresh, more.existing there, ?_, ?_⟩
    · rw [more.object_eq there, entries]
    · rw [more.object_eq there, alone]

/-- A source can be made at any time. -/
theorem make_realizes (sound : src.Sound base) (more : base.Extends s.heap) :
    ∃ w h, src.make s = .ok w { s with heap := h } ∧ s.heap.Extends h ∧ Realized base h src w := by
  cases src with
  | value v => exact ⟨v, s.heap, rfl, .refl _, rfl⟩
  | items vs =>
    refine ⟨_, _, rfl, .newArray s.heap _, _, rfl, more.arrays_le, ?_, ?_⟩
    · simp
    · simp [Heap.elements]
  | entries es =>
    refine ⟨_, _, rfl, .newObject s.heap _, _, rfl, more.objects_le, ?_, ?_⟩
    · simp [Heap.existing]
    · simp [Heap.object, Table.entries_ofList sound.2]

/-! ### Reading -/

/-- An object that inherits from none has its own properties only. -/
theorem lookup?_alone {r : ObjectRef} (there : r ∈ h.existing)
    (alone : (h.object r).prototype = none)
    (key : String) : h.lookup? r key = (h.object r).props.get? key := by
  have chain := (Heap.Path.last alone).chain_eq (by simpa using there)
  rw [Heap.lookup?, chain]
  simp

theorem Realized.elements_eq {vs : List Value} {r : ArrayRef}
    (realized : Realized base h (.items vs) (.array r)) : h.elements r = vs.toArray := by
  obtain ⟨r, ⟨⟩, -, -, rfl⟩ := realized
  simp

section Alike

variable (sound : src.Sound base) (more : base.Extends h) (realized : Realized base h src w)
  (more' : base.Extends h') (realized' : Realized base h' src w')

include sound more realized more' realized'

variable (closed : base.Closed)
include closed

theorem get?_alike (key : String) : h.get? w key = h'.get? w' key := by
  cases src with
  | value v =>
    cases realized
    cases realized'
    rw [more.get?_eq closed sound, more'.get?_eq closed sound]
  | items vs =>
    obtain ⟨r, rfl, -⟩ := id realized
    obtain ⟨r', rfl, -⟩ := id realized'
    simp only [Heap.get?, realized.elements_eq, realized'.elements_eq]
  | entries es =>
    obtain ⟨r, rfl, -, there, entries, alone⟩ := realized
    obtain ⟨r', rfl, -, there', entries', alone'⟩ := realized'
    simp only [Heap.get?, lookup?_alone there alone, lookup?_alone there' alone', Table.get?,
      entries, entries']

end Alike

theorem Realized.isNullish_eq (realized : Realized base h src w) : w.isNullish = src.isNullish := by
  cases src with
  | value => cases realized; rfl
  | items => obtain ⟨r, rfl, -⟩ := realized; rfl
  | entries => obtain ⟨r, rfl, -⟩ := realized; rfl

/-- Whatever is read from a source was there. -/
theorem Realized.has (realized : Realized base h src w) (closed : base.Closed)
    (sound : src.Sound base)
    (more : base.Extends h) (found : h.get? w key = some v) : base.Has v := by
  cases src with
  | value u =>
    cases realized
    rw [more.get?_eq closed sound] at found
    exact closed.get? sound found
  | items vs =>
    obtain ⟨r, rfl, -⟩ := id realized
    simp only [Heap.get?, realized.elements_eq] at found
    split at found
    · cases found
      trivial
    · obtain ⟨i, -, found⟩ := Option.bind_eq_some_iff.1 found
      exact sound v (by simpa using Array.mem_of_getElem? found)
  | entries es =>
    obtain ⟨r, rfl, -, there, entries, alone⟩ := realized
    rw [Heap.get?, lookup?_alone there alone] at found
    have member := Table.mem_of_lookup? found
    rw [entries] at member
    exact sound.1 _ member

theorem Realized.find?_eq {m : Methods} (realized : Realized base h src w)
    (realized' : Realized base h' src w') (key : String) : m.find? w key = m.find? w' key := by
  cases src with
  | value => cases realized; cases realized'; rfl
  | items => obtain ⟨r, rfl, -⟩ := realized; obtain ⟨r', rfl, -⟩ := realized'; rfl
  | entries => obtain ⟨r, rfl, -⟩ := realized; obtain ⟨r', rfl, -⟩ := realized'; rfl

/-- A source answers as a value does that it is made to. -/
theorem answer_eq (sound : src.Sound s.heap) : ∃ w h, s.heap.Extends h ∧ Realized s.heap h src w ∧
    ∀ {α : Type} (ask : Value → Eval α), src.answer s ask =
      match ask w { s with heap := h } with
      | .ok a _ => some a
      | _ => none := by
  obtain ⟨w, h, made, more, realized⟩ := make_realizes sound (.refl s.heap)
  refine ⟨w, h, more, realized, fun ask => ?_⟩
  unfold answer
  rw [bind_of_ok made]

section

variable (closed : s.heap.Closed) (sound : src.Sound s.heap) (more : s.heap.Extends t.heap)
  (realm : t.realm = s.realm) (realized : Realized s.heap t.heap src w)

include sound more realized

theorem iterate_eq (iterable : src.isIterable = true) : iterate w t = .ok (src.elements s) t := by
  cases src with
  | value v =>
    cases realized
    cases w with
    | array r => simp only [iterate, gets, elements, more.elements_eq sound]
    | string => rfl
    | _ => cases iterable
  | items vs =>
    obtain ⟨r, rfl, -⟩ := id realized
    simp only [iterate, gets, elements, realized.elements_eq]
  | entries => cases iterable

omit sound more in
theorem iterate_refused (other : src.isIterable = false) : ∃ f, iterate w t = .fault f t := by
  cases src with
  | value v =>
    cases realized
    cases w with
    | array | string => cases other
    | _ => exact ⟨_, rfl⟩
  | items => cases other
  | entries =>
    obtain ⟨r, rfl, -⟩ := realized
    exact ⟨_, rfl⟩

theorem ownEntries_eq : t.heap.ownEntries w = src.own s := by
  cases src with
  | value v =>
    cases realized
    cases w with
    | array r => rw [Heap.ownEntries_array, more.elements_eq sound]; rfl
    | string text => exact Heap.ownEntries_string _ text
    | object r => rw [Heap.ownEntries_object, more.object_eq sound]; rfl
    | function r =>
      simp only [own, ← more.function?_eq r]
      cases found : t.heap.function? r with
      | none => simp [Heap.ownEntries, Heap.ownKeys, found]
      | some f => exact Heap.ownEntries_function found
    | _ => rfl
  | items vs =>
    obtain ⟨r, rfl, -⟩ := id realized
    rw [Heap.ownEntries_array, realized.elements_eq]; rfl
  | entries es =>
    obtain ⟨r, rfl, -, -, entries, -⟩ := realized
    rw [Heap.ownEntries_object, entries]; rfl

include closed

include realm

theorem getProperty_eq (ordinary : src.isNullish = false) (apart : key ≠ "prototype") :
    getProperty w key t = .ok (src.property s key) t := by
  obtain ⟨w', h', more', realized', answers⟩ := answer_eq sound
  have read := Eval.getProperty_eq (realized.isNullish_eq.trans ordinary) apart
  have read' := Eval.getProperty_eq (realized'.isNullish_eq.trans ordinary) apart
  unfold property
  rw [answers, read, read',
    get?_alike sound more realized more' realized' closed, realized.find?_eq realized', realm]
  rfl

end

/-! ### What is read is sound -/

section

variable (closed : s.heap.Closed) (sound : src.Sound s.heap)

include closed sound

theorem sound_property (key : String) (ordinary : src.isNullish = false)
    (apart : key ≠ "prototype") :
    s.heap.Has (src.property s key) := by
  obtain ⟨w, h, more, realized, answers⟩ := answer_eq sound
  unfold property
  rw [answers, Eval.getProperty_eq (realized.isNullish_eq.trans ordinary) apart]
  change s.heap.Has ((h.get? w key).getD ((s.realm.methods.find? w key).getD .undefined))
  cases found : h.get? w key with
  | some v => exact realized.has closed sound more found
  | none =>
    cases shared : s.realm.methods.find? w key with
    | none => trivial
    | some m =>
      obtain ⟨f, -, rfl⟩ := Option.map_eq_some_iff.1 shared
      trivial

theorem sound_elements : ∀ v ∈ src.elements s, s.heap.Has v := by
  cases src with
  | value v =>
    cases v with
    | array r => exact closed.elements r
    | string text =>
      intro v member
      obtain ⟨c, -, rfl⟩ := List.mem_map.1 member
      trivial
    | _ => exact fun _ member => absurd member List.not_mem_nil
  | items vs => exact sound
  | entries => exact fun _ member => absurd member List.not_mem_nil

theorem sound_own : (∀ e ∈ src.own s, s.heap.Has e.2) ∧ ((src.own s).map (·.1)).Nodup := by
  obtain ⟨w, h, more, realized, answers⟩ := answer_eq sound
  have own : h.ownEntries w = src.own s :=
    ownEntries_eq (t := { s with heap := h }) sound more realized
  rw [← own]
  refine ⟨fun e member => ?_, h.nodup_ownEntries w⟩
  obtain ⟨k, -, rfl⟩ := List.mem_map.1 member
  change s.heap.Has ((h.get? w k).getD .undefined)
  cases found : h.get? w k with
  | none => trivial
  | some v => exact realized.has closed sound more found

end

end Source

/-! ### The parts of a pattern -/

namespace State

variable {s : State} {src : Source} {p q : Pattern}

/-- What the element at place `i` of an array pattern is matched with. -/
def slot (vs : List Value) (i : Nat) (p : Pattern) : Pattern × Source :=
  (p.inner, if Tree.isRest p then .items (vs.drop i) else .value (vs.getD i .undefined))

/-- The patterns right below a pattern, each with the projection of the source that it is matched
with. -/
def parts (s : State) : Pattern × Source → List (Pattern × Source)
  | (.array _ es, src) => es.zipIdx.filterMap fun e => e.1.map (slot (src.elements s) e.2)
  | (.object _ ps rest, src) =>
    ps.map (fun p => (p.value, .value (src.property s p.text))) ++
      rest.toList.map fun p =>
        (p, .entries ((src.own s).filter fun e => !(ps.map (·.text)).contains e.1))
  | _ => []

/-- A pattern meets a source, below another pattern or as that itself. -/
abbrev Meets (s : State) : Pattern × Source → Pattern × Source → Prop :=
  Relation.ReflTransGen fun j k => k ∈ s.parts j

/-- Whether a pattern can be matched with a source. -/
def Accepts : Pattern × Source → Prop
  | (.array _ _, src) => src.isIterable = true
  | (.object _ _ _, src) => src.isNullish = false
  | _ => True

/-- All array patterns meet arrays or texts, and no object pattern meets undefined or null. -/
def Fits (s : State) (j : Pattern × Source) : Prop :=
  ∀ k, s.Meets j k → Accepts k

theorem fits_iff {j : Pattern × Source} : s.Fits j ↔ Accepts j ∧ ∀ k ∈ s.parts j, s.Fits k := by
  constructor
  · intro fits
    exact ⟨fits j .refl, fun k part l meets => fits l (.head part meets)⟩
  · rintro ⟨accepts, below⟩ k meets
    rcases Relation.ReflTransGen.cases_head meets with rfl | ⟨l, part, meets⟩
    · exact accepts
    · exact below l part k meets

end State

end Scriptlet
