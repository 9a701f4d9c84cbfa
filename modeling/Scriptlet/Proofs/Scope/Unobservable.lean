import Scriptlet.Proofs.Scope.Mirror

/-!
Requests keep the mirror.

For every kind of request: the keeping desk stays one that keeps, the other desk stays its mirror,
and both give the same answer. The main theorem is `answers_reclaiming`.
-/

namespace Scriptlet.Desk

variable {d k : Desk} {id x : ScopeId} {request : Request}

/-- Both desks answer the same, and the one still mirrors the other. -/
def Alike (here there : Answer × Desk) : Prop :=
  here.1 = there.1 ∧ Mirror here.2 there.2

/-! ### What may be asked for on both desks -/

theorem Allows.grants (allowed : d.Allows request) : d.Grants request := by
  cases request with
  | edit => exact allowed.2
  | release | collect | drop | forget | read | lookup | hoist => trivial
  | push | capture | keep | makeArray | makeObject | makeClosure | makeNative | setArray | setObject
  | setProps => exact allowed

namespace Mirror

variable (mirror : Mirror d k) (keeps : k.Keeps)

include mirror keeps

omit mirror in
theorem at_eq {n : Nat} (inside : n < k.scopes.length) : d.at_ n = d.place (k.at_ n) := by
  rw [keeps.at_eq inside]
  rfl

theorem holdsScope {n : Nat} (held : k.HoldsScope n) : d.HoldsScope n := by
  refine ⟨mirror.length ▸ held.1, ?_⟩
  rw [at_eq keeps held.1]
  exact mirror.holds keeps held.2

theorem owns {v : Value} (owned : k.Owns v) : d.Owns v := fun x refers => by
  have holds := mirror.holds keeps (owned x refers)
  rwa [moved_of_value refers] at holds

theorem ownsObject {o : Object} (owned : k.OwnsObject o) : d.OwnsObject o :=
  ⟨fun v member => mirror.owns keeps (owned.1 v member), fun p above =>
    mirror.holds keeps (owned.2 p above)⟩

theorem grants (granted : k.Grants request) : d.Grants request := by
  cases request with
  | push | capture | makeClosure => exact mirror.holdsScope keeps granted
  | keep | edit => exact mirror.owns keeps granted
  | makeArray | setArray | makeNative | setProps =>
    exact fun v member => mirror.owns keeps (granted v member)
  | makeObject | setObject => exact mirror.ownsObject keeps granted
  | release | collect | drop | forget | read | lookup | hoist => trivial

end Mirror

/-! ### Handles and kept values -/

theorem holds_of_regard {handles : List Nat} {values : List Value}
    (scopes : ∀ n ∈ handles, k.HoldsScope n) (owned : ∀ v ∈ values, k.Owns v)
    {x : Holding} (holds : Holds { k with handles := handles, values := values } x) :
    k.Holds x := by
  refine Held.fewer (fun x isRoot => ?_) (fun x y before refers => .step before refers) holds
  refine isRoot.holds (fun _ running => running) (fun id member => ?_) fun v member =>
    owned v member
  obtain ⟨n, there, rfl⟩ := List.mem_map.1 member
  exact (scopes n there).2

/-- Handles and kept values may change as long as they hold nothing that was not held. -/
theorem alike_regard (mirror : Mirror d k) {handles handles' : List Nat}
    {values values' : List Value}
    (sameHandles : handles' = handles) (sameValues : values' = values)
    (scopes : ∀ n ∈ handles, k.HoldsScope n) (owned : ∀ v ∈ values, k.Owns v) :
    Alike (.done, { d with handles := handles', values := values' })
      (.done, { k with handles := handles, values := values }) := by
  subst sameHandles sameValues
  have fewer {x : Holding} (holds : Holds { k with handles := handles', values := values' } x) :
      k.Holds x :=
    holds_of_regard scopes owned holds
  exact ⟨rfl, {
    mirror with
    handles := rfl
    values := rfl
    record := fun id holds => mirror.record id (fewer holds)
    latest := fun id holds => mirror.latest id (fewer holds)
    function := fun r holds => mirror.function r (fewer holds) }⟩

/-- Both desks find the handle of a held scope. -/
theorem captured_alike (sound : d.Sound) (mirror : Mirror d k) (keeps : k.Keeps) {n : Nat}
    (held : k.HoldsScope n) :
    ∃ η, (k.arena.record (k.at_ n)).handle? = some η ∧ k.captured .keeping n = (η, k.arena) ∧
      d.captured .reclaiming n = (η.moved d.place, d.arena) := by
  obtain ⟨η, handle, captured⟩ := keeps.toSound.captured_eq .keeping held
  obtain ⟨θ, handle', captured'⟩ := sound.captured_eq .reclaiming (mirror.holdsScope keeps held)
  rw [Mirror.at_eq keeps held.1, mirror.record _ held.2, Record.handle?_moved, handle] at handle'
  cases handle'
  exact ⟨η, handle, captured, captured'⟩

/-! ### Containers -/

theorem Mirror.reheap (mirror : Mirror d k) {heap heap' : Heap} {values : List Value}
    (within : ∀ x, Holds { k with heap := heap, values := values } x →
      k.Holds x ∨ ∀ id, x ≠ .scope id)
    (arrays : heap'.arrays = heap.arrays) (objects : heap'.objects = heap.objects)
    (functions : heap'.functions.size = heap.functions.size)
    (function : ∀ r, Holds { k with heap := heap, values := values } (.function r) →
      heap'.function? r = (heap.function? r).map (FunctionObject.moved d.place)) :
    Mirror { d with heap := heap', values := values }
      { k with heap := heap, values := values } := by
  have scopes {id : ScopeId} (holds : Holds { k with heap := heap, values := values } (.scope id)) :
      k.Holds (.scope id) :=
    (within _ holds).resolve_right fun container => container id rfl
  exact {
    mirror with
    values := rfl
    arrays := arrays
    objects := objects
    functions := functions
    record := fun id holds => mirror.record id (scopes holds)
    latest := fun id holds => mirror.latest id (scopes holds)
    function := function }

/-- Both desks make a container of what is held, and keep it. -/
theorem alike_make (mirror : Mirror d k) {v v' : Value} {made : Holding}
    {heap heap' : Heap} (same : v' = v) (delivered : Holding.ofValue? v = some made)
    (others : ∀ x, x ≠ made → Unchanged k.arena k.arena k.heap heap x)
    (others' : ∀ x, x ≠ made → Unchanged d.arena d.arena d.heap heap' x)
    (content : ∀ y, Refers k.arena heap made y → k.Holds y)
    (arrays : heap'.arrays = heap.arrays) (objects : heap'.objects = heap.objects)
    (functions : heap'.functions.size = heap.functions.size)
    (function : ∀ r, made = .function r →
      heap'.function? r = (heap.function? r).map (FunctionObject.moved d.place)) :
    Alike (d.deliver v' heap') (k.deliver v heap) := by
  subst same
  have new (x : Holding) (holds : Holds { k with heap := heap, values := v' :: k.values } x) :
      k.Holds x ∨ x = made :=
    held_of_make delivered others content holds
  refine ⟨rfl, ?_⟩
  simp only [deliver, mirror.values]
  refine mirror.reheap (fun x holds => (new x holds).imp_right ?_) arrays objects functions ?_
  · rintro rfl id rfl
    exact Holding.ofValue?_ne_scope _ id delivered
  · intro r holds
    by_cases fresh : Holding.function r = made
    · exact function r fresh.symm
    · have before := (new _ holds).resolve_right fresh
      have unchanged : heap.function? r = k.heap.function? r := others _ fresh
      have unchanged' : heap'.function? r = d.heap.function? r := others' _ fresh
      rw [unchanged, unchanged']
      exact mirror.function r before

/-- Both desks fill a container with what is held. -/
theorem alike_fill (mirror : Mirror d k) {touched : Holding} {heap heap' : Heap}
    (others : ∀ x, x ≠ touched → Unchanged k.arena k.arena k.heap heap x)
    (content : ∀ y, k.Holds touched → Refers k.arena heap touched y → k.Holds y)
    (arrays : heap'.arrays = heap.arrays) (objects : heap'.objects = heap.objects)
    (functions : heap'.functions.size = heap.functions.size)
    (function : ∀ r, k.Holds (.function r) →
      heap'.function? r = (heap.function? r).map (FunctionObject.moved d.place)) :
    Alike (.done, { d with heap := heap' }) (.done, { k with heap := heap }) := by
  have fewer (x : Holding) (holds : Holds { k with heap := heap } x) : k.Holds x :=
    held_of_fill others content holds
  have mirrored := mirror.reheap (fun x holds => .inl (fewer x holds)) arrays objects functions
    fun r holds => function r (fewer _ holds)
  refine ⟨rfl, ?_⟩
  simp only [← mirror.values] at mirrored ⊢
  exact mirrored

theorem alike_makeArray (mirror : Mirror d k) {elements : Array Value}
    (owned : ∀ v ∈ elements, k.Owns v) (p q : Policy) :
    Alike (d.step p (.makeArray elements)) (k.step q (.makeArray elements)) := by
  have same : (d.heap.newArray elements).1 = (k.heap.newArray elements).1 := by
    simp [Heap.newArray, mirror.arrays]
  refine alike_make mirror (by rw [same]) rfl (fun x => unchanged_newArray elements)
    (fun x apart => unchanged_newArray elements (by rwa [same])) (fun y refers => ?_) ?_ ?_ ?_
    (by rintro _ ⟨⟩)
  · obtain ⟨v, member, refers⟩ := refers.of_newArray
    exact owned v member y refers
  all_goals simp [Heap.newArray, mirror.arrays, mirror.objects, mirror.functions]

theorem alike_makeObject (mirror : Mirror d k) {o : Object} (owned : k.OwnsObject o)
    (p q : Policy) :
    Alike (d.step p (.makeObject o)) (k.step q (.makeObject o)) := by
  have same : (d.heap.newObject o).1 = (k.heap.newObject o).1 := by
    simp [Heap.newObject, mirror.objects]
  refine alike_make mirror (by rw [same]) rfl (fun x => unchanged_newObject o)
    (fun x apart => unchanged_newObject o (by rwa [same])) (fun y refers => ?_) ?_ ?_ ?_
    (by rintro _ ⟨⟩)
  · rcases refers.of_newObject with ⟨v, member, refers⟩ | ⟨p, above, rfl⟩
    · exact owned.1 v member y refers
    · exact owned.2 p above
  all_goals simp [Heap.newObject, mirror.arrays, mirror.objects, mirror.functions]

/-- Both desks make a function that is the same but for the slots of its handle. -/
theorem alike_makeFunction (mirror : Mirror d k) {f : FunctionObject} (props : f.props = {})
    (scope : ∀ η, Heap.handleOf? f = some η → k.Holds (.scope η.scope))
    (owned : ∀ v ∈ Heap.keptBy f, k.Owns v) :
    Alike
      (d.deliver (.function (d.heap.newFunction (f.moved d.place)).1)
        (d.heap.newFunction (f.moved d.place)).2)
      (k.deliver (.function (k.heap.newFunction f).1) (k.heap.newFunction f).2) := by
  have same : (d.heap.newFunction (f.moved d.place)).1 = (k.heap.newFunction f).1 := by
    simp [Heap.newFunction, mirror.functions]
  refine alike_make mirror (by rw [same]) rfl (fun x => unchanged_newFunction f)
    (fun x apart => unchanged_newFunction _ (by rwa [same])) (fun y refers => ?_) ?_ ?_ ?_
    (fun r fresh => ?function)
  · rcases refers.of_newFunction with ⟨v, member, refers⟩ | ⟨η, made, rfl⟩
    · rw [props] at member
      exact owned v member y refers
    · exact scope η made
  case function =>
    cases fresh
    simp only [Heap.function?, Heap.newFunction, Array.getElem?_push, mirror.functions, if_true,
      Option.map_some]
  all_goals simp [Heap.newFunction, mirror.arrays, mirror.objects, mirror.functions]

theorem alike_setArray (mirror : Mirror d k) {r : ArrayRef} {elements : Array Value}
    (owned : ∀ v ∈ elements, k.Owns v) (p q : Policy) :
    Alike (d.step p (.setArray r elements)) (k.step q (.setArray r elements)) := by
  refine alike_fill mirror (fun x => unchanged_modifyArray (r := r) fun _ => elements)
    (fun y _ refers => ?_) ?_ ?_ ?_ mirror.function
  · obtain ⟨v, member, refers⟩ := refers.of_setArray
    exact owned v member y refers
  all_goals simp [Heap.modifyArray, mirror.arrays, mirror.objects, mirror.functions]

theorem alike_setObject (mirror : Mirror d k) {r : ObjectRef} {o : Object} (owned : k.OwnsObject o)
    (p q : Policy) : Alike (d.step p (.setObject r o)) (k.step q (.setObject r o)) := by
  refine alike_fill mirror (fun x => unchanged_modifyObject (r := r) fun _ => o)
    (fun y _ refers => ?_) ?_ ?_ ?_ mirror.function
  · rcases refers.of_setObject with ⟨v, member, refers⟩ | ⟨p, above, rfl⟩
    · exact owned.1 v member y refers
    · exact owned.2 p above
  all_goals simp [Heap.modifyObject, mirror.arrays, mirror.objects, mirror.functions]

theorem alike_setProps (mirror : Mirror d k) {r : FunctionRef} {props : Table Value}
    (owned : ∀ v ∈ props.values, k.Owns v) (p q : Policy) :
    Alike (d.step p (.setProps r props)) (k.step q (.setProps r props)) := by
  have set (h : Heap) (s : FunctionRef) :
      (h.modifyFunction r fun f => { f with props := props }).function? s =
        if r = s then (h.function? s).map fun f => { f with props := props }
          else h.function? s := by
    by_cases same : r = s
    · subst same
      simp [Heap.function?, Heap.modifyFunction, Array.getElem?_modify]
    · have apart : ¬r.index = s.index := fun equal => same (by cases r; cases s; simp_all)
      simp [Heap.function?, Heap.modifyFunction, Array.getElem?_modify, apart, same]
  refine alike_fill mirror (fun x => unchanged_modifyFunction (r := r) _)
    (fun y before refers => ?_) ?_ ?_ ?_ fun s holds => ?function
  · rcases refers.of_setProps with ⟨v, member, refers⟩ | refers
    · exact owned v member y refers
    · exact .step before refers
  case function =>
    rw [set, set, mirror.function s holds]
    split
    · cases k.heap.function? s with
      | none => rfl
      | some f =>
        obtain ⟨name, callable, old⟩ := f
        cases callable <;> rfl
    · rfl
  all_goals simp [Heap.modifyFunction, mirror.arrays, mirror.objects, mirror.functions]

/-! ### Bindings -/

/-- Both desks set a binding of the same held scope. -/
theorem Mirror.bind (sound : d.Sound) (mirror : Mirror d k) (keeps : k.Keeps)
    (holds : k.Holds (.scope id)) {name : String} {set : Binding} (owned : k.Owns set.value) :
    Mirror { d with arena := d.arena.bind (d.place id) name set }
      { k with arena := k.arena.bind id name set } where
  __ := mirror
  running x running := by
    rw [Arena.phase_bind] at running
    obtain ⟨id, runs, here⟩ := mirror.running x running
    exact ⟨id, by rwa [Arena.phase_bind], here⟩
  record x after := by
    have before : k.Holds (.scope x) := held_of_bind owned after
    show (d.arena.bind (d.place id) name set).record (d.place x) =
      ((k.arena.bind id name set).record x).moved d.place
    simp only [Arena.bind]
    by_cases target : x = id
    · subst target
      have inside := Arena.lt_size_of_allocated (keeps.safe.allocated before)
      have inside' := Arena.lt_size_of_allocated (sound.safe.allocated (mirror.holds keeps before))
      rw [Arena.record_modifyRecord_self inside, Arena.record_modifyRecord_self inside',
        mirror.record x before]
      rfl
    · have apart : d.place x ≠ d.place id :=
        fun equal => target (mirror.place_inj before holds equal)
      rw [Arena.record_modifyRecord_of_ne target, Arena.record_modifyRecord_of_ne apart]
      exact mirror.record x before
  latest x after := mirror.latest x (held_of_bind owned after)
  function r after := mirror.function r (held_of_bind owned after)

/-- What an operation on bindings does on both desks: refuse, leave all as it is, or set one binding
of a held scope. -/
inductive Parallel (d k : Desk) :
    EStateM.Result Cause Arena Bool → EStateM.Result Cause Arena Bool → Prop where
  | refused {c : Cause} : Parallel d k (.error c d.arena) (.error c k.arena)
  | same {b : Bool} : Parallel d k (.ok b d.arena) (.ok b k.arena)
  | set {b : Bool} {id : ScopeId} {name : String} {set : Binding} :
      k.Holds (.scope id) → k.Owns set.value →
      Parallel d k (.ok b (d.arena.bind (d.place id) name set)) (.ok b (k.arena.bind id name set))

theorem parallel_write (mirror : Mirror d k) (keeps : k.Keeps) (holds : k.Holds (.scope id))
    {name : String} {v : Value} (owned : k.Owns v) :
    Parallel d k (Edit.op (d.place id) name v .write d.arena)
      (Edit.op id name v .write k.arena) := by
  simp only [Edit.op, Arena.write, bind, EStateM.bind, pure, EStateM.pure,
    mirror.lookup?_eq keeps holds]
  cases found : k.arena.lookup? id name with
  | none => exact .refused
  | some owner =>
    obtain ⟨owner, b⟩ := owner
    obtain ⟨path, climbs, _, held, allocated, _⟩ := mirror.ways keeps holds
    have on := (Arena.mem_of_lookup? climbs allocated found).1
    simp only [Option.map_some]
    by_cases constant : b.kind = .const
    · simp only [constant, if_true]
      exact .refused
    · simp only [constant, if_false]
      exact .set (held owner on) owned

theorem parallel_declareVar (mirror : Mirror d k) (keeps : k.Keeps) (holds : k.Holds (.scope id))
    {name : String} {v : Value} (owned : k.Owns v) :
    Parallel d k (Arena.declareVar (d.place id) name v d.arena)
      (Arena.declareVar id name v k.arena) := by
  obtain ⟨path, climbs, _, held, allocated, _⟩ := mirror.ways keeps holds
  have target := held _ (Arena.hoistTarget_mem climbs allocated)
  simp only [Arena.declareVar, mirror.hoistTarget_eq keeps holds, Arena.binds, Table.contains,
    mirror.get?_eq target]
  by_cases there :
      ((k.arena.record (k.arena.hoistTarget id)).bindings.get? name).isSome = true
  · simp only [there, if_true]
    exact .same
  · simp only [there]
    exact .set target owned

theorem parallel_declareOwn (mirror : Mirror d k) (holds : k.Holds (.scope id)) (kind : DeclKind)
    {name : String} {v : Value} (owned : k.Owns v) :
    Parallel d k ((do Arena.declareOwn kind (d.place id) name v; return true) d.arena)
      ((do Arena.declareOwn kind id name v; return true) k.arena) := by
  simp only [Arena.declareOwn, bind, EStateM.bind, pure, EStateM.pure, Arena.binds, Table.contains,
    mirror.get?_eq holds]
  by_cases there : ((k.arena.record id).bindings.get? name).isSome = true
  · simp only [there, if_true]
    exact .refused
  · simp only [there]
    exact .set holds owned

theorem op_declare_var (id : ScopeId) (name : String) (v : Value) (a : Arena) :
    Edit.op id name v (.declare .var) a =
      match Arena.declareVar id name v a with
      | .ok _ a => .ok true a
      | .error c a => .error c a := by
  simp only [Edit.op, Arena.declare, discard, Functor.mapConst, Function.comp_apply, EStateM.map,
    bind, EStateM.bind, pure, EStateM.pure]
  cases Arena.declareVar id name v a <;> rfl

theorem parallel_edit (mirror : Mirror d k) (keeps : k.Keeps) (holds : k.Holds (.scope id))
    {name : String} {v : Value} (owned : k.Owns v) (e : Edit) :
    Parallel d k (e.op (d.place id) name v d.arena) (e.op id name v k.arena) := by
  cases e with
  | write => exact parallel_write mirror keeps holds owned
  | declareVar => exact parallel_declareVar mirror keeps holds owned
  | declare kind =>
    cases kind with
    | var =>
      rw [op_declare_var, op_declare_var]
      have parallel : Parallel d k (Arena.declareVar (d.place id) name v d.arena)
          (Arena.declareVar id name v k.arena) := parallel_declareVar mirror keeps holds owned
      generalize Arena.declareVar (d.place id) name v d.arena = here at parallel ⊢
      generalize Arena.declareVar id name v k.arena = there at parallel ⊢
      cases parallel with
      | refused => exact .refused
      | same => exact .same
      | set holds owned => exact .set holds owned
    | let_ => exact parallel_declareOwn mirror holds .let_ owned
    | const => exact parallel_declareOwn mirror holds .const owned
  | declareFunction =>
    simp only [Edit.op, Arena.declareFunction, bind, EStateM.bind, pure, EStateM.pure,
      mirror.get?_eq holds]
    cases found : (k.arena.record id).bindings.get? name with
    | none => exact .set holds owned
    | some before =>
      obtain ⟨_, kind⟩ := before
      cases kind with
      | var => exact .set holds owned
      | let_ => exact .refused
      | const => exact .refused

/-! ### Opening a scope -/

theorem moved_congr {place place' : ScopeId → ScopeId} {f : FunctionObject}
    (same : ∀ η, Heap.handleOf? f = some η → η.moved place = η.moved place') :
    f.moved place = f.moved place' := by
  unfold FunctionObject.moved
  cases made : f.callable with
  | closure fn η realm => simp only [same η (by simp [Heap.handleOf?, made])]
  | native => rfl

section Push

variable {kind : ScopeKind} {n : Nat} {η : Handle}

/-- A desk after a scope was opened under one with the given handle. -/
def pushed (d : Desk) (kind : ScopeKind) (n : Nat) (η : Handle) : Desk :=
  let opened := d.arena.openUnder kind (d.at_ n) η
  { d with arena := opened.2, scopes := opened.1 :: d.scopes }

theorem holders_pushed (sound : d.Sound) : (d.pushed kind n η).holders = d.holders := by
  simp only [holders, pushed, Holders.mk.injEq, and_true]
  exact List.map_congr_left fun m member => recordAt_cons (sound.handles m member)

theorem Keeps.nextSlot (keeps : k.Keeps) : k.arena.nextSlot = ⟨k.scopes.length⟩ := by
  simp [Arena.nextSlot, keeps.free, keeps.size]

theorem holds_of_pushed (sound : k.Sound) (under : k.HoldsScope n) {x : Holding}
    (holds : (k.pushed kind n η).Holds x) : k.Holds x ∨ x = .scope k.arena.nextSlot := by
  unfold Holds at holds
  rw [holders_pushed sound] at holds
  exact held_of_open sound.safe under.2 holds

theorem place_pushed (d : Desk) (earlier : id.index < d.scopes.length) :
    (d.pushed kind n η).place id = d.place id :=
  recordAt_cons earlier

section

variable (sound : d.Sound) (mirror : Mirror d k) (keeps : k.Keeps) (under : k.HoldsScope n)

include mirror keeps

theorem lt_scopes (holds : k.Holds (.scope id)) : id.index < d.scopes.length := by
  rw [mirror.length]
  exact keeps.lt_length holds

/-- Opening a scope leaves the places of held scopes, and so the handles of held scopes. -/
theorem handle_moved_pushed (holds : k.Holds (.scope id)) {θ ξ : Handle}
    (handle : (k.arena.record id).handle? = some θ) :
    θ.moved (d.pushed kind n ξ).place = θ.moved d.place := by
  exact Handle.moved_congr fun ζ on =>
    place_pushed d (lt_scopes mirror keeps (keeps.safe.holds_chain holds handle on))

theorem record_moved_pushed (holds : k.Holds (.scope id)) {ξ : Handle} :
    (k.arena.record id).moved (d.pushed kind n ξ).place = (k.arena.record id).moved d.place := by
  have above : (k.arena.record id).parent.map (d.pushed kind n ξ).place =
      (k.arena.record id).parent.map d.place := by
    exact Option.map_congr fun parent above =>
      place_pushed d (lt_scopes mirror keeps (holds.parent above))
  have moored : (k.arena.record id).mooring.moved (d.pushed kind n ξ).place =
      (k.arena.record id).mooring.moved d.place := by
    cases mooring : (k.arena.record id).mooring with
    | none => rfl
    | weak θ | anchored θ =>
      have same : θ.moved (d.pushed kind n ξ).place = θ.moved d.place :=
        handle_moved_pushed mirror keeps holds (by rw [Record.handle?, mooring]; rfl)
      rw [Mooring.moved, Mooring.moved, same]
  rw [Record.moved, Record.moved, above, moored]

theorem place_pushed_new {ξ : Handle} :
    (d.pushed kind n ξ).place k.arena.nextSlot = d.arena.nextSlot := by
  simp [place, at_, pushed, keeps.nextSlot, ← mirror.length, Arena.openUnder_fst]

include sound under

/-- The records of the new scopes are the same but for the slots. -/
theorem record_pushed_new (handle : (k.arena.record (k.at_ n)).handle? = some η) :
    (d.pushed kind n (η.moved d.place)).arena.record d.arena.nextSlot =
      ((k.pushed kind n η).arena.record k.arena.nextSlot).moved
        (d.pushed kind n (η.moved d.place)).place := by
  have there : (d.pushed kind n (η.moved d.place)).place (k.at_ n) = d.at_ n := by
    rw [place_pushed d (lt_scopes mirror keeps under.2)]
    exact (Mirror.at_eq keeps under.1).symm
  have above : η.moved (d.pushed kind n (η.moved d.place)).place = η.moved d.place :=
    handle_moved_pushed mirror keeps under.2 handle
  show (d.arena.openUnder kind (d.at_ n) (η.moved d.place)).2.record d.arena.nextSlot =
    ((k.arena.openUnder kind (k.at_ n) η).2.record k.arena.nextSlot).moved _
  rw [Arena.record_openUnder sound.safe.tidy, Arena.record_openUnder keeps.safe.tidy, if_pos rfl,
    if_pos rfl]
  simp only [Arena.freshRecord, Arena.freshHandle, Record.moved, Mooring.moved, Handle.moved,
    Option.map_some, there, above, place_pushed_new mirror keeps, mirror.made]

theorem mirror_pushed (handle : (k.arena.record (k.at_ n)).handle? = some η) :
    Mirror (d.pushed kind n (η.moved d.place)) (k.pushed kind n η) := by
  have earlier {id : ScopeId} (holds : k.Holds (.scope id)) := lt_scopes mirror keeps holds
  have old {id : ScopeId} (holds : k.Holds (.scope id)) : id ≠ k.arena.nextSlot := fun same =>
    keeps.safe.allocated holds (same ▸ Arena.nextSlot_free keeps.safe.tidy)
  have taken {id : ScopeId} (holds : k.Holds (.scope id)) : d.place id ≠ d.arena.nextSlot :=
    fun same => sound.safe.allocated (mirror.holds keeps holds)
      (same ▸ Arena.nextSlot_free sound.safe.tidy)
  have slot : (d.pushed kind n (η.moved d.place)).place k.arena.nextSlot = d.arena.nextSlot :=
    place_pushed_new mirror keeps
  have record (x : ScopeId) :=
    Arena.record_openUnder sound.safe.tidy kind (d.at_ n) x (η.moved d.place)
  have record' (x : ScopeId) := Arena.record_openUnder keeps.safe.tidy kind (k.at_ n) x η
  refine ⟨?_, ?_, ?_, congrArg Nat.succ mirror.length, mirror.handles, mirror.values, mirror.arrays,
    mirror.objects, mirror.functions, fun x running => ?_, fun id holds => ?_, fun id holds => ?_,
    fun r holds => ?_⟩
  · simp only [pushed, Arena.realm_openUnder, mirror.realm]
  · simp only [pushed, Arena.made_openUnder, mirror.made]
  · rw [place_pushed d (earlier (.root (.running keeps.safe.tidy.root)))]
    exact mirror.root
  · by_cases new : x = d.arena.nextSlot
    · subst new
      refine ⟨k.arena.nextSlot, ?_, slot⟩
      rw [pushed, record', if_pos rfl]
      rfl
    · rw [pushed, record, if_neg new] at running
      obtain ⟨id, runs, rfl⟩ := mirror.running x running
      have holds : k.Holds (.scope id) := .root (.running runs)
      refine ⟨id, ?_, place_pushed d (earlier holds)⟩
      rwa [pushed, record', if_neg (old holds)]
  · rcases holds_of_pushed keeps.toSound under holds with before | new
    · rw [place_pushed d (earlier before)]
      simp only [pushed, record, record', if_neg (old before), if_neg (taken before)]
      rw [mirror.record id before]
      exact (record_moved_pushed mirror keeps before).symm
    · cases new
      rw [slot]
      exact record_pushed_new sound mirror keeps under handle
  · rcases holds_of_pushed keeps.toSound under holds with before | new
    · rw [place_pushed d (earlier before)]
      have apart : d.place id ≠ (d.arena.openUnder kind (d.at_ n) (η.moved d.place)).1 := by
        rw [Arena.openUnder_fst]
        exact taken before
      exact (latest?_cons apart).trans (mirror.latest id before)
    · cases new
      rw [slot, keeps.nextSlot, ← mirror.length]
      simp [number?, pushed, latest?, Arena.openUnder_fst]
  · have before := (holds_of_pushed keeps.toSound under holds).resolve_right (by rintro ⟨⟩)
    refine (mirror.function r before).trans (Option.map_congr fun f found => ?_)
    refine moved_congr fun θ made => ?_
    have own := keeps.own r f θ found made
    have holds : k.Holds (.scope θ.scope) := .step before (.closure found made own)
    have current := keeps.safe.current r f θ before found made own
    exact (handle_moved_pushed mirror keeps holds current).symm

theorem alike_push :
    Alike (d.step .reclaiming (.push kind n)) (k.step .keeping (.push kind n)) := by
  obtain ⟨η, handle, opened⟩ := keeps.toSound.push_eq .keeping under kind
  obtain ⟨θ, handle', opened'⟩ := sound.push_eq .reclaiming (mirror.holdsScope keeps under) kind
  rw [Mirror.at_eq keeps under.1, mirror.record _ under.2, Record.handle?_moved, handle] at handle'
  cases handle'
  refine ⟨by simp [step, mirror.length], ?_⟩
  simp only [step, opened, opened']
  exact mirror_pushed sound mirror keeps under handle

end

end Push

/-! ### The keeping desk -/

theorem scopes_step {p : Policy} (other : ∀ kind n, request ≠ .push kind n) :
    (d.step p request).2.scopes = d.scopes := by
  cases request with
  | push kind n => exact absurd rfl (other kind n)
  | edit e n name v =>
    simp only [step]
    split <;> rfl
  | read n name | lookup n name =>
    simp only [step]
    split <;> rfl
  | _ => rfl

theorem keeps_step (keeps : k.Keeps) (granted : k.Grants request) :
    (k.step .keeping request).2.Keeps := by
  have sound := keeps.toSound.step .keeping granted
  by_cases push : ∃ kind n, request = .push kind n
  · obtain ⟨kind, n, rfl⟩ := push
    obtain ⟨η, -, opened⟩ := keeps.toSound.push_eq .keeping granted kind
    refine ⟨sound, ?_, ?_, ?_⟩ <;> simp only [step, opened]
    · exact ⟨by rw [Arena.openUnder_fst, keeps.nextSlot], keeps.numbered⟩
    · simp [Arena.openUnder, keeps.free, keeps.size]
    · simp [Arena.openUnder, keeps.free]
  · have scopes : (k.step .keeping request).2.scopes = k.scopes :=
      scopes_step fun kind n same => push ⟨kind, n, same⟩
    have same : (k.step .keeping request).2.arena.records.size = k.arena.records.size ∧
        (k.step .keeping request).2.arena.free = k.arena.free := by
      cases keeps.toSound.arena_step .keeping granted with
      | same same => exact ⟨by rw [same], by rw [same]⟩
      | collected same => exact ⟨by rw [same]; rfl, by rw [same]; rfl⟩
      | sets sets => exact sets.slots
      | opened asked => exact absurd ⟨_, _, asked⟩ push
      | released same =>
        exact ⟨by rw [same]; exact Arena.size_retire .., by rw [same]; exact Arena.free_retire ..⟩
    exact
      ⟨sound, scopes ▸ keeps.numbered, by rw [scopes, same.1, keeps.size], same.2.trans keeps.free⟩

/-! ### Ending scopes -/

/-- Both desks note that a scope has ended. -/
theorem Mirror.retire (mirror : Mirror d k) (keeps : k.Keeps)
    (runs : (k.arena.record id).phase = .running) :
    Mirror { d with arena := d.arena.retire (d.place id) }
      { k with arena := k.arena.retire id } := by
  by_cases top : id = Arena.root
  · subst top
    simpa [mirror.root] using mirror
  have root : k.Holds (.scope Arena.root) := .root (.running keeps.safe.tidy.root)
  have holds : k.Holds (.scope id) := .root (.running runs)
  have top' : d.place id ≠ Arena.root := fun same =>
    top (mirror.place_inj holds root (same.trans mirror.root.symm))
  have runs' : (d.arena.record (d.place id)).phase = .running := by
    rw [mirror.record id holds, Record.phase_moved]
    exact runs
  exact {
    mirror with
    realm := by rw [Arena.realm_retire, Arena.realm_retire, mirror.realm]
    made := by rw [Arena.made_retire, Arena.made_retire, mirror.made]
    running := fun x running => by
      by_cases same : x = d.place id
      · subst same
        exact absurd running (Arena.phase_retire_self top')
      · rw [Arena.record_retire_of_ne same] at running
        obtain ⟨y, before, rfl⟩ := mirror.running x running
        have other : y ≠ id := fun equal => same (by rw [equal])
        exact ⟨y, by rwa [Arena.record_retire_of_ne other], rfl⟩
    record := fun x after => by
      show (d.arena.retire (d.place id)).record (d.place x) =
        ((k.arena.retire id).record x).moved d.place
      have before : k.Holds (.scope x) := held_of_retire id after
      by_cases same : x = id
      · subst same
        rw [Arena.record_retire top runs, Arena.record_retire top' runs', mirror.record x before,
          Arena.moved_endedRecord]
      · have other : d.place x ≠ d.place id := fun equal =>
          same (mirror.place_inj before holds equal)
        rw [Arena.record_retire_of_ne same, Arena.record_retire_of_ne other]
        exact mirror.record x before
    latest := fun x after => mirror.latest x (held_of_retire id after)
    function := fun r after => mirror.function r (held_of_retire id after) }

/-- Clearing records that the mirroring desk does not hold keeps the mirror. -/
theorem Mirror.sweep (mirror : Mirror d k) (keeps : k.Keeps) {arena : Arena}
    (sweeps : Sweeps d.heap d.holders d.arena arena) : Mirror { d with arena := arena } k where
  __ := mirror
  realm := sweeps.realm.trans mirror.realm
  made := sweeps.made.trans mirror.made
  running x running := by
    have same := sweeps.record_of_allocated (by rw [running]; simp)
    exact mirror.running x (same ▸ running)
  record id holds := (sweeps.record (mirror.holds keeps holds)).trans (mirror.record id holds)

/-! ### Requests -/

/-- Every request that may be asked for gets the same answer, and keeps the mirror. -/
theorem alike_step (sound : d.Sound) (mirror : Mirror d k) (keeps : k.Keeps)
    (allowed : k.Allows request) :
    Alike (d.step .reclaiming request) (k.step .keeping request) := by
  have place {n : Nat} (inside : n < k.scopes.length) : d.at_ n = d.place (k.at_ n) :=
    Mirror.at_eq keeps inside
  cases request with
  | push kind n => exact alike_push sound mirror keeps allowed
  | release n =>
    obtain ⟨inside, runs⟩ := allowed
    refine ⟨rfl, ?_⟩
    simp only [step, place inside]
    have granted : k.Grants (.release n) := trivial
    have keeps' : Keeps { k with arena := k.arena.retire (k.at_ n) } := keeps_step keeps granted
    exact (mirror.retire keeps runs).sweep keeps' (sweeps_release sound.safe _)
  | collect => exact ⟨rfl, mirror.sweep keeps (sweeps_collect sound.safe)⟩
  | capture n =>
    obtain ⟨η, -, captured, captured'⟩ := captured_alike sound mirror keeps allowed
    simp only [step, captured, captured', mirror.handles]
    refine alike_regard mirror rfl mirror.values (fun m member => ?_) fun v => owns_value
    rcases List.mem_cons.1 member with rfl | old
    · exact allowed
    · exact keeps.toSound.holdsScope old
  | drop handle =>
    exact alike_regard mirror (by rw [mirror.handles]) mirror.values
      (fun m member => keeps.toSound.holdsScope (List.mem_of_mem_eraseIdx member))
      fun v => owns_value
  | keep v =>
    refine alike_regard mirror mirror.handles (by rw [mirror.values])
      (fun m => keeps.toSound.holdsScope) fun w member => ?_
    rcases List.mem_cons.1 member with rfl | old
    · exact allowed
    · exact owns_value old
  | forget kept =>
    exact alike_regard mirror mirror.handles (by rw [mirror.values])
      (fun m => keeps.toSound.holdsScope) fun v member =>
        owns_value (List.mem_of_mem_eraseIdx member)
  | edit e n name v =>
    obtain ⟨⟨inside, holds⟩, owned⟩ := allowed
    have parallel : Parallel d k (e.op (d.place (k.at_ n)) name v d.arena)
        (e.op (k.at_ n) name v k.arena) := parallel_edit mirror keeps holds owned e
    simp only [step, place inside]
    generalize e.op (d.place (k.at_ n)) name v d.arena = here at parallel ⊢
    generalize e.op (k.at_ n) name v k.arena = there at parallel ⊢
    cases parallel with
    | refused | same => exact ⟨rfl, mirror⟩
    | set holds owned => exact ⟨rfl, mirror.bind sound keeps holds owned⟩
  | read n name =>
    obtain ⟨inside, holds⟩ := allowed
    simp only [step, place inside, Arena.read, mirror.lookup?_eq keeps holds]
    cases k.arena.lookup? (k.at_ n) name with
    | none | some found => exact ⟨rfl, mirror⟩
  | lookup n name =>
    obtain ⟨inside, holds⟩ := allowed
    obtain ⟨path, climbs, _, held, allocated, _⟩ := mirror.ways keeps holds
    simp only [step, place inside, mirror.lookup?_eq keeps holds]
    cases found : k.arena.lookup? (k.at_ n) name with
    | none => exact ⟨rfl, mirror⟩
    | some owner =>
      have on := (Arena.mem_of_lookup? climbs allocated found).1
      refine ⟨?_, mirror⟩
      simp [mirror.latest _ (held _ on), keeps.number?_eq (held _ on)]
  | hoist n =>
    obtain ⟨inside, holds⟩ := allowed
    obtain ⟨path, climbs, _, held, allocated, _⟩ := mirror.ways keeps holds
    have target := held _ (Arena.hoistTarget_mem climbs allocated)
    refine ⟨?_, mirror⟩
    simp only [step, place inside, mirror.hoistTarget_eq keeps holds, mirror.latest _ target,
      keeps.number?_eq target]
  | makeArray elements => exact alike_makeArray mirror allowed ..
  | makeObject o => exact alike_makeObject mirror allowed ..
  | makeClosure name fn n realm =>
    obtain ⟨η, handle, captured, captured'⟩ := captured_alike sound mirror keeps allowed
    simp only [step, captured, captured']
    refine alike_makeFunction mirror (f := { name := name, callable := .closure fn η realm }) rfl
      (fun θ made => ?_) (by simp [Heap.keptBy])
    cases made
    rw [keeps.safe.chartered.scope handle]
    exact allowed.2
  | makeNative name arity op =>
    exact alike_makeFunction mirror rfl (by simp [Heap.handleOf?]) allowed
  | setArray r elements => exact alike_setArray mirror allowed ..
  | setObject r o => exact alike_setObject mirror allowed ..
  | setProps r props => exact alike_setProps mirror allowed ..

/-- What can be told of a scope: its kind, its phase, its bindings, and the number of its parent. -/
structure View where
  kind : ScopeKind
  phase : Phase
  bindings : Table Binding
  parent : Option Nat

def view (d : Desk) (n : Nat) : View :=
  let r := d.arena.record (d.at_ n)
  { kind := r.kind, phase := r.phase, bindings := r.bindings, parent := r.parent.bind d.number? }

theorem view_eq (sound : d.Sound) (mirror : Mirror d k) (keeps : k.Keeps) {n : Nat}
    (held : k.HoldsScope n) :
    (d.arena.record (d.at_ n)).phase ≠ .free ∧ d.number? (d.at_ n) = some n ∧
      d.view n = k.view n := by
  obtain ⟨inside, holds⟩ := held
  have same : d.at_ n = d.place (k.at_ n) := Mirror.at_eq keeps inside
  have number : (k.at_ n).index = n := by rw [keeps.at_eq inside]
  have moved := mirror.record _ holds
  rw [view, same]
  refine ⟨sound.safe.allocated (mirror.holds keeps holds), ?_, ?_⟩
  · rw [mirror.latest _ holds, number]
  · simp only [view, moved, Record.phase_moved]
    cases above : (k.arena.record (k.at_ n)).parent with
    | none => simp [Record.moved, above]
    | some parent =>
      have held : k.Holds (.scope parent) := holds.parent above
      simp [Record.moved, above, mirror.latest _ held, keeps.number?_eq held]

theorem run_alike (sound : d.Sound) (mirror : Mirror d k) (keeps : k.Keeps)
    {requests : List Request} (lawful : k.Lawful requests) :
    (d.run .reclaiming requests).1 = (k.run .keeping requests).1 ∧
      (d.run .reclaiming requests).2.Sound ∧
      Mirror (d.run .reclaiming requests).2 (k.run .keeping requests).2 ∧
      Keeps (k.run .keeping requests).2 := by
  induction requests generalizing d k with
  | nil => exact ⟨rfl, sound, mirror, keeps⟩
  | cons request rest ih =>
    obtain ⟨same, mirror'⟩ := alike_step sound mirror keeps lawful.1
    have granted := lawful.1.grants
    obtain ⟨answers, after⟩ := ih (sound.step .reclaiming (mirror.grants keeps granted)) mirror'
      (keeps_step keeps granted) lawful.2
    exact ⟨by simp [run, same, answers], after⟩

/-- Reclaiming records is not observable: a desk that ends scopes and looks through the released
ones answers every sequence of requests as one that frees nothing does, and at its end every scope
that is held is still in a slot of its own, with the kind, the phase, the bindings and the parent it
has where nothing is freed. -/
theorem answers_reclaiming (requests : List Request) (lawful : Lawful {} requests) :
    (run .reclaiming {} requests).1 = (run .keeping {} requests).1 ∧
      ∀ n, (run .keeping {} requests).2.HoldsScope n →
        let d := (run .reclaiming {} requests).2
        (d.arena.record (d.at_ n)).phase ≠ .free ∧ d.number? (d.at_ n) = some n ∧
          d.view n = (run .keeping {} requests).2.view n := by
  obtain ⟨same, sound, mirror, keeps⟩ := run_alike sound_new mirror_new keeps_new lawful
  exact ⟨same, fun n held => view_eq sound mirror keeps held⟩

/-- A closure outlives the scope it was made in, a second scope comes and goes, and a third one
reads a binding of the first. -/
def closureRequests : List Request :=
  let fn : Function := {
    kind := .expression, name := none, params := []
    body := .block { body := [], span := ⟨0, 0⟩ }, span := ⟨0, 0⟩ }
  [.push .function 0, .edit (.declare .let_) 1 "x" (.string "kept"), .makeClosure "f" fn 1 0,
    .edit (.declare .let_) 0 "f" (.function ⟨0⟩), .forget 0, .release 1, .push .block 0, .release 2,
    .collect, .push .block 1, .read 3 "x"]

theorem lawful_closureRequests : Lawful {} closureRequests := by
  refine ⟨⟨by decide, .root (.running rfl)⟩, ⟨⟨by decide, .root (.running rfl)⟩, ?_⟩,
    ⟨by decide, .root (.running rfl)⟩, ⟨⟨by decide, .root (.running rfl)⟩, ?_⟩, trivial,
    ⟨by decide, rfl⟩, ⟨by decide, .root (.running rfl)⟩, ⟨by decide, rfl⟩, trivial,
    ⟨by decide, ?_⟩, ⟨by decide, .root (.running rfl)⟩, trivial⟩
  · intro x refers
    cases refers
  · intro x refers
    exact .root (.value List.mem_cons_self refers)
  · -- the root binds the closure, and the closure was made in the scope
    refine .step (x := .function ⟨0⟩) (.step (x := .scope Arena.root) (.root (.running rfl)) ?_) ?_
    · exact .binding List.mem_cons_self rfl
    · let handle : Handle := .under 1 ⟨1⟩ (.top 0 0 Arena.root)
      show Refers _ _ _ (.scope handle.scope)
      exact .closure rfl rfl (by cbv)

theorem answers_closureRequests :
    Lawful {} closureRequests ∧
      (run .reclaiming {} closureRequests).1.getLast? = some (.value (.string "kept")) := by
  refine ⟨lawful_closureRequests, ?_⟩
  rw [(answers_reclaiming closureRequests lawful_closureRequests).1]
  rfl

end Scriptlet.Desk
