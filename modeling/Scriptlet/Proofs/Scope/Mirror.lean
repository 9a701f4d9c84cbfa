import Mathlib.Data.List.Find
import Scriptlet.Proofs.Scope.Account

/-!
Reclaiming records cannot be observed.

A desk that reclaims records mirrors one that keeps them all: whatever the keeping desk holds is in
some slot of the other one, with the same bindings and under the mirrored parent. Every request that
may be asked for keeps the mirror, so that both desks give the same answers.
-/

namespace Scriptlet

section Moved

variable (place : ScopeId → ScopeId)

/-- The handle of a scope that is in another slot, and whose ancestors are. -/
def Handle.moved : Handle → Handle
  | .top realm number scope => .top realm number (place scope)
  | .under number scope parent => .under number (place scope) parent.moved
  | .slot scope => .slot (place scope)

/-- A function whose scope is in another slot. -/
def FunctionObject.moved (f : FunctionObject) : FunctionObject :=
  match f.callable with
  | .closure fn η realm => { f with callable := .closure fn (η.moved place) realm }
  | .native _ _ => f

def Holding.moved : Holding → Holding
  | .scope id => .scope (place id)
  | other => other

def Mooring.moved : Mooring → Mooring
  | .none => .none
  | .weak η => .weak (η.moved place)
  | .anchored η => .anchored (η.moved place)

/-- A record in another slot. -/
def Record.moved (r : Record) : Record :=
  { r with parent := r.parent.map place, mooring := r.mooring.moved place }

@[simp] theorem Handle.scope_moved (η : Handle) : (η.moved place).scope = place η.scope := by
  cases η <;> rfl

@[simp] theorem Handle.realm?_moved (η : Handle) : (η.moved place).realm? = η.realm? := by
  induction η with
  | under number scope parent ih => exact ih
  | top | slot => rfl

variable {place} in
/-- A handle is moved by where its scope and those above are. -/
theorem Handle.moved_congr {place' : ScopeId → ScopeId} {η : Handle}
    (same : ∀ θ ∈ η.chain, place θ.scope = place' θ.scope) : η.moved place = η.moved place' := by
  induction η with
  | under number scope parent ih =>
    have here : place scope = place' scope := same _ (Handle.mem_chain_self _)
    rw [moved, moved, here, ih fun θ on => same θ (List.mem_cons_of_mem _ on)]
  | top realm number scope | slot scope =>
    have here : place scope = place' scope := same _ (Handle.mem_chain_self _)
    rw [moved, moved, here]

@[simp] theorem Record.phase_moved (r : Record) : (r.moved place).phase = r.phase := by
  unfold moved phase
  cases r.mooring <;> rfl

@[simp] theorem Record.handle?_moved (r : Record) :
    (r.moved place).handle? = r.handle?.map (Handle.moved place) := by
  unfold moved handle?
  cases r.mooring <;> rfl

@[simp] theorem Arena.moved_endedRecord (r : Record) :
    endedRecord (r.moved place) = (endedRecord r).moved place := by
  unfold endedRecord Record.moved
  cases r.mooring <;> rfl

@[simp] theorem moved_props (f : FunctionObject) : (f.moved place).props = f.props := by
  unfold FunctionObject.moved
  split <;> rfl

@[simp] theorem keptBy_moved (f : FunctionObject) :
    Heap.keptBy (f.moved place) = Heap.keptBy f := by
  unfold FunctionObject.moved
  split
  · rename_i made
    simp [Heap.keptBy, made]
  · rfl

@[simp] theorem handleOf?_moved (f : FunctionObject) :
    Heap.handleOf? (f.moved place) = (Heap.handleOf? f).map (Handle.moved place) := by
  unfold FunctionObject.moved
  split
  · rename_i made
    simp [Heap.handleOf?, made]
  · rename_i made
    simp [Heap.handleOf?, made]

variable {place} in
theorem moved_of_value {v : Value} {y : Holding} (refers : Holding.ofValue? v = some y) :
    y.moved place = y := by
  cases y with
  | scope id => exact absurd refers (Holding.ofValue?_ne_scope v id)
  | array | object | function => rfl

end Moved

namespace Desk

/-- Where a desk has the scope that the keeping desk has in a slot. -/
def place (d : Desk) (id : ScopeId) : ScopeId :=
  d.at_ id.index

/-- What is true of a desk that never frees a record. -/
structure Keeps (k : Desk) : Prop extends Sound k where
  numbered : Numbered k.scopes
  size : k.scopes.length = k.arena.records.size
  free : k.arena.free = []

/-- What the second desk holds is in the first one as well, though in other slots. -/
structure Mirror (d k : Desk) : Prop where
  realm : d.arena.realm = k.arena.realm
  made : d.arena.made = k.arena.made
  root : d.place Arena.root = Arena.root
  length : d.scopes.length = k.scopes.length
  handles : d.handles = k.handles
  values : d.values = k.values
  arrays : d.heap.arrays = k.heap.arrays
  objects : d.heap.objects = k.heap.objects
  functions : d.heap.functions.size = k.heap.functions.size
  running : ∀ x, (d.arena.record x).phase = .running →
    ∃ id, (k.arena.record id).phase = .running ∧ d.place id = x
  record : ∀ id, k.Holds (.scope id) →
    d.arena.record (d.place id) = (k.arena.record id).moved d.place
  latest : ∀ id, k.Holds (.scope id) → d.number? (d.place id) = some id.index
  function : ∀ r, k.Holds (.function r) →
    d.heap.function? r = (k.heap.function? r).map (FunctionObject.moved d.place)

variable {d k : Desk} {id x : ScopeId}

theorem Keeps.at_eq (keeps : k.Keeps) {n : Nat} (inside : n < k.scopes.length) : k.at_ n = ⟨n⟩ :=
  recordAt_numbered keeps.numbered inside

theorem Keeps.lt_length (keeps : k.Keeps) (holds : k.Holds (.scope id)) :
    id.index < k.scopes.length := by
  rw [keeps.size]
  exact Arena.lt_size_of_allocated (keeps.safe.allocated holds)

theorem Keeps.number?_eq (keeps : k.Keeps) (holds : k.Holds (.scope id)) :
    k.number? id = some id.index :=
  latest?_numbered keeps.numbered (keeps.lt_length holds)

theorem keeps_new : Keeps {} :=
  ⟨sound_new, ⟨rfl, trivial⟩, rfl, rfl⟩

theorem mirror_new : Mirror {} {} := by
  have zero {id : ScopeId} (holds : Holds {} (.scope id)) : id = Arena.root := by
    have inside := keeps_new.lt_length holds
    exact ScopeId.index_inj.1 (by simpa [Arena.root] using inside)
  refine ⟨rfl, rfl, rfl, rfl, rfl, rfl, rfl, rfl, rfl, fun x running => ?_, fun id holds => ?_,
    fun id holds => ?_, fun r holds => ?_⟩
  · have holds : Holds {} (.scope x) := .root (.running running)
    exact ⟨x, running, by rw [zero holds]; rfl⟩
  · rw [zero holds]
    rfl
  · rw [zero holds]
    rfl
  · rfl

/-! ### Both desks hold the same -/

namespace Mirror

theorem holders_scopes (mirror : Mirror d k) (keeps : k.Keeps) :
    d.holders.scopes = k.holders.scopes.map d.place := by
  simp only [holders, mirror.handles, List.map_map]
  refine List.map_congr_left ?_
  intro n member
  simp [place, keeps.at_eq (keeps.handles n member)]

theorem elements (mirror : Mirror d k) (r : ArrayRef) : d.heap.elements r = k.heap.elements r := by
  simp [Heap.elements, mirror.arrays]

theorem object (mirror : Mirror d k) (r : ObjectRef) : d.heap.object r = k.heap.object r := by
  simp [Heap.object, mirror.objects]

/-- What the keeping desk holds is held by the other one. -/
theorem holds (mirror : Mirror d k) (keeps : k.Keeps) {x : Holding} (held : k.Holds x) :
    d.Holds (x.moved d.place) := by
  induction held with
  | root isRoot =>
    cases isRoot with
    | @running id running =>
      have same := mirror.record id (.root (.running running))
      exact .root (.running (by rw [same, Record.phase_moved]; exact running))
    | handle member =>
      refine .root (.handle ?_)
      rw [mirror.holders_scopes keeps]
      exact List.mem_map_of_mem member
    | value member refers =>
      rw [moved_of_value refers]
      exact .root (.value (show _ ∈ d.values by rw [mirror.values]; exact member) refers)
  | step before refers ih =>
    refine .step ih ?_
    cases refers with
    | @parent id parent above =>
      have same := mirror.record id before
      exact .parent (by simp [same, Record.moved, above])
    | @binding id _ _ member refers =>
      have same := mirror.record id before
      rw [moved_of_value refers]
      exact .binding (by rw [same]; exact member) refers
    | element member refers =>
      rw [moved_of_value refers]
      exact .element (by rwa [mirror.elements]) refers
    | property member refers =>
      rw [moved_of_value refers]
      exact .property (by rwa [mirror.object]) refers
    | prototype above => exact .prototype (by rwa [mirror.object])
    | @own r f _ _ found member refers =>
      rw [moved_of_value refers]
      refine .own (f := f.moved d.place) ?_ (by rwa [moved_props]) refers
      rw [mirror.function r before, found, Option.map_some]
    | @closure r f η found made own =>
      have moved : Refers d.arena d.heap (.function r) (.scope (η.moved d.place).scope) := by
        refine .closure (f := f.moved d.place) ?_
          (by rw [handleOf?_moved, made, Option.map_some]) ?_
        · rw [mirror.function r before, found, Option.map_some]
        · rw [Handle.realm?_moved, mirror.realm, own]
      rwa [Handle.scope_moved] at moved
    | @kept r f _ _ found member refers =>
      rw [moved_of_value refers]
      refine .kept (f := f.moved d.place) ?_ (by rwa [keptBy_moved]) refers
      rw [mirror.function r before, found, Option.map_some]

/-- Scopes that are held are in different slots. -/
theorem place_inj (mirror : Mirror d k) (holds : k.Holds (.scope id)) (holds' : k.Holds (.scope x))
    (same : d.place id = d.place x) : id = x := by
  have number := mirror.latest id holds
  rw [same, mirror.latest x holds'] at number
  exact ScopeId.index_inj.1 (Option.some.inj number).symm

/-! ### Walks -/

theorem climbs (mirror : Mirror d k) {path : List ScopeId} (climbs : k.arena.Climbs id path)
    (held : ∀ x ∈ path, k.Holds (.scope x)) :
    d.arena.Climbs (d.place id) (path.map d.place) := by
  induction climbs with
  | @top id none =>
    have same := mirror.record id (held id (by simp))
    exact .top (by simp [same, Record.moved, none])
  | @up id parent path here _ ih =>
    have same := mirror.record id (held id (by simp))
    exact .up (by simp [same, Record.moved, here])
      (ih fun x on => held x (List.mem_cons_of_mem _ on))

/-- The way up from a held scope on both desks. -/
theorem ways (mirror : Mirror d k) (keeps : k.Keeps)
    (holds : k.Holds (.scope id)) :
    ∃ path, k.arena.Climbs id path ∧ d.arena.Climbs (d.place id) (path.map d.place) ∧
      (∀ x ∈ path, k.Holds (.scope x)) ∧ (∀ x ∈ path, (k.arena.record x).phase ≠ .free) ∧
      ∀ x ∈ path.map d.place, (d.arena.record x).phase ≠ .free := by
  obtain ⟨path, climbs⟩ := keeps.safe.climbs holds
  have held (x : ScopeId) (on : x ∈ path) : k.Holds (.scope x) := Held.of_climbs holds climbs on
  have allocated (x : ScopeId) (on : x ∈ path) := keeps.safe.allocated (held x on)
  refine ⟨path, climbs, mirror.climbs climbs held, held, allocated, fun y on => ?_⟩
  obtain ⟨x, there, rfl⟩ := List.mem_map.1 on
  rw [mirror.record x (held x there), Record.phase_moved]
  exact allocated x there

theorem lookup?_eq (mirror : Mirror d k) (keeps : k.Keeps) (holds : k.Holds (.scope id))
    (name : String) :
    d.arena.lookup? (d.place id) name =
      (k.arena.lookup? id name).map fun found => (d.place found.1, found.2) := by
  obtain ⟨path, climbs, climbs', held, allocated, allocated'⟩ := mirror.ways keeps holds
  rw [Arena.lookup?_eq climbs allocated, Arena.lookup?_eq climbs' allocated', List.findSome?_map,
    List.map_findSome?]
  clear climbs climbs' allocated allocated'
  induction path with
  | nil => rfl
  | cons x path ih =>
    have same := mirror.record x (held x List.mem_cons_self)
    have later := ih fun y on => held y (List.mem_cons_of_mem _ on)
    cases own : (k.arena.record x).bindings.get? name <;>
      simp [Arena.own, same, Record.moved, own, later]

theorem hoistTarget_eq (mirror : Mirror d k) (keeps : k.Keeps) (holds : k.Holds (.scope id)) :
    d.arena.hoistTarget (d.place id) = d.place (k.arena.hoistTarget id) := by
  obtain ⟨path, climbs, climbs', held, allocated, allocated'⟩ := mirror.ways keeps holds
  have target := Arena.hoistTarget_eq climbs allocated
  have target' := Arena.hoistTarget_eq climbs' allocated'
  rw [List.find?_map] at target'
  have stops : ∀ x ∈ path, (d.arena.stopsVar ∘ d.place) x = k.arena.stopsVar x := by
    intro x on
    have same := mirror.record x (held x on)
    simp [Arena.stopsVar, same, Record.moved]
  rw [List.find?_congr stops, target] at target'
  exact (Option.some.inj target').symm

theorem get?_eq (mirror : Mirror d k) (holds : k.Holds (.scope id)) (name : String) :
    (d.arena.record (d.place id)).bindings.get? name =
      (k.arena.record id).bindings.get? name := by
  rw [mirror.record id holds, Record.moved]

end Mirror

end Desk

end Scriptlet
