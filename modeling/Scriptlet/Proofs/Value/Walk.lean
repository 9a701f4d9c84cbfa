import Mathlib.Data.List.Basic
import Mathlib.Logic.Relation
import Scriptlet.Value.Text

/-!
Walks over containers.

A walk goes from a container to the values in it and keeps the containers that it is inside of. It
enters none of them again, and a heap has only so many, so every walk ends.
-/

namespace Scriptlet

open Relation

/-- The container that a value is; functions are not walked. -/
def Value.container? : Value → Option Heap.Container
  | .array r => some (.array r)
  | .object r => some (.object r)
  | _ => none

namespace Heap

/-- The values in a container: the elements of an array, the own properties of an object. -/
def held (h : Heap) : Container → List Value
  | .array r => (h.elements r).toList
  | .object r => (h.object r).props.entries.map (·.2)

/-- One container is in another one directly. -/
def Holds (h : Heap) (c d : Container) : Prop :=
  ∃ v ∈ h.held c, v.container? = some d

/-- A value from which a container can be reached that can be reached from itself. -/
def LeadsToCycle (h : Heap) (v : Value) : Prop :=
  ∃ c d, v.container? = some c ∧ ReflTransGen h.Holds c d ∧ TransGen h.Holds d d

/-- The arrays of a heap. -/
def arrayContainers (h : Heap) : List Container :=
  (List.range h.arrays.size).map (.array ⟨·⟩)

/-- The containers of a heap. -/
def containers (h : Heap) : List Container :=
  h.arrayContainers ++ (List.range h.objects.size).map (.object ⟨·⟩)

variable {h : Heap} {r : ArrayRef} {c : Container} {path : List Container} {v w : Value}

theorem mem_arrayContainers (member : v ∈ h.held (.array r)) : .array r ∈ h.arrayContainers := by
  refine List.mem_map.2 ⟨r.index, List.mem_range.2 ?_, rfl⟩
  by_contra out
  simp [held, elements, Array.getElem?_eq_none (Nat.le_of_not_lt out)] at member

theorem mem_containers (member : v ∈ h.held c) : c ∈ h.containers := by
  cases c with
  | array r => exact List.mem_append_left _ (mem_arrayContainers member)
  | object r =>
    refine List.mem_append_right _ (List.mem_map.2 ⟨r.index, List.mem_range.2 ?_, rfl⟩)
    by_contra out
    simp [held, object, Array.getElem?_eq_none (Nat.le_of_not_lt out)] at member

/-- A container leads to a cycle if and only if something in it does. -/
theorem leadsToCycle_iff_held (is : v.container? = some c) :
    h.LeadsToCycle v ↔ ∃ w ∈ h.held c, h.LeadsToCycle w := by
  constructor
  · rintro ⟨_, d, same, reach, cycle⟩
    cases is.symm.trans same
    -- the way goes on: to the cycle, or around it
    obtain ⟨e, ⟨w, member, inside⟩, rest⟩ : ∃ e, h.Holds c e ∧ ReflTransGen h.Holds e d := by
      rcases reach.cases_head with rfl | onward
      · exact TransGen.head'_iff.1 cycle
      · exact onward
    exact ⟨w, member, e, d, inside, rest, cycle⟩
  · rintro ⟨w, member, e, d, inside, reach, cycle⟩
    exact ⟨c, d, is, .head ⟨w, member, inside⟩ reach, cycle⟩

/-- A walk that makes something of every value. -/
structure Walk (h : Heap) (α : Type) where
  /-- The container that is entered at a value. -/
  entered : List Container → Value → Option Container
  /-- What is made of a value at which none is entered. -/
  answer : List Container → Value → α
  /-- What is made of a container with what is made of the values in it. -/
  gather : Container → (Value → α) → α
  container_of_entered : ∀ {path v c}, entered path v = some c → v.container? = some c
  new_of_entered : ∀ {path v c}, entered path v = some c → c ∉ path
  /-- The containers with something in them that are entered. -/
  span : List Container
  mem_span : ∀ {path v w c}, entered path v = some c → w ∈ h.held c → c ∈ span
  gather_congr : ∀ {c f g}, (∀ w ∈ h.held c, f w = g w) → gather c f = gather c g

namespace Walk

variable {α : Type} {walk : Walk h α} {a b : α}

/-- How many containers that are entered are not on a path. -/
def room (walk : Walk h α) (path : List Container) : Nat :=
  (walk.span.filter (· ∉ path)).length

theorem room_nil (walk : Walk h α) : walk.room [] = walk.span.length := by
  simp [room]

/-- Entering a container leaves less room. -/
theorem room_cons_lt (there : c ∈ walk.span) (new : c ∉ path) :
    walk.room (c :: path) < walk.room path := by
  have fewer : walk.span.filter (· ∉ c :: path) = (walk.span.filter (· ∉ path)).filter (· ≠ c) := by
    rw [List.filter_filter]
    refine List.filter_congr fun d _ => ?_
    simp [not_or]
  rw [room, fewer]
  refine List.length_filter_lt_length_iff_exists.2 ⟨c, ?_, by simp⟩
  exact List.mem_filter.2 ⟨there, by simpa using new⟩

/-- The walks from a value inside the containers of a path that end, and what they make of it. -/
inductive Run (walk : Walk h α) : List Container → Value → α → Prop where
  | answer {path : List Container} {v : Value} :
      walk.entered path v = none → Run walk path v (walk.answer path v)
  | gather {path : List Container} {v : Value} {c : Container} (made : Value → α) :
      walk.entered path v = some c → (∀ w ∈ h.held c, Run walk (c :: path) w (made w)) →
      Run walk path v (walk.gather c made)

/-- One step of a walk, with something to make of the values in a container. -/
def step (walk : Walk h α) (next : List Container → Value → α) (path : List Container)
    (v : Value) : α :=
  match walk.entered path v with
  | none => walk.answer path v
  | some c => walk.gather c (next (c :: path))

variable {next : List Container → Value → α}

theorem step_of_none (none : walk.entered path v = none) :
    walk.step next path v = walk.answer path v := by
  rw [step, none]

theorem step_of_some (some : walk.entered path v = some c) :
    walk.step next path v = walk.gather c (next (c :: path)) := by
  rw [step, some]

/-- A walk that counts its steps ends before the count does if that exceeds the room there is. -/
theorem run_of_step (counted : Nat → List Container → Value → α)
    (steps : ∀ n path v, counted (n + 1) path v = walk.step (counted n) path v) {n : Nat}
    (enough : walk.room path < n) : walk.Run path v (counted n path v) := by
  induction n generalizing path v with
  | zero => exact absurd enough (Nat.not_lt_zero _)
  | succ n ih =>
    rw [steps, step]
    split
    next none => exact .answer none
    next c some =>
      refine .gather _ some fun w member => ih ?_
      have less := walk.room_cons_lt (walk.mem_span some member) (walk.new_of_entered some)
      omega

/-- A walk makes one thing of a value. -/
theorem Run.unique (run : walk.Run path v a) (run' : walk.Run path v b) : a = b := by
  induction run generalizing b with
  | answer none =>
    cases run' with
    | answer => rfl
    | gather _ some => cases none.symm.trans some
  | gather made some _ ih =>
    cases run' with
    | answer none => cases none.symm.trans some
    | gather made' some' inside' =>
      cases some.symm.trans some'
      exact walk.gather_congr fun w member => ih w member (inside' w member)

/-- A walk with room for all its steps ends, in one way. -/
theorem run_iff_of_step (counted : Nat → List Container → Value → α)
    (steps : ∀ n path v, counted (n + 1) path v = walk.step (counted n) path v) {n : Nat}
    (enough : walk.room path < n) : walk.Run path v a ↔ a = counted n path v := by
  have run : walk.Run path v (counted n path v) := run_of_step counted steps enough
  exact ⟨fun run' => run'.unique run, fun same => same ▸ run⟩

end Walk

end Heap

end Scriptlet
