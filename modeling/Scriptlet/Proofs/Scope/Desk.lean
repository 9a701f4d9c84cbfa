import Scriptlet.Proofs.Scope.Reclaiming

/-!
A desk where scopes are asked for by number.

Scopes are numbered in the order in which they are opened, the root first, so that two desks can be
compared that keep their records in different slots. The `reclaiming` desk ends scopes and looks
through the released ones as an arena does; the `keeping` desk never frees a record.
-/

namespace Scriptlet

/-- An arena and a heap, with what is held from outside of them. -/
structure Desk where
  arena : Arena := .new
  heap : Heap := {}
  /-- The records of the scopes, that of the latest scope first. -/
  scopes : List ScopeId := [Arena.root]
  /-- The numbers of the scopes that handles hold. -/
  handles : List Nat := []
  values : List Value := []

/-- How a desk ends scopes and looks through the released ones, and which handles are there. -/
structure Policy where
  release : Arena → Heap → Holders → ScopeId → Arena
  collect : Arena → Heap → Holders → Arena
  isAlive : Arena → Heap → Holders → Handle → Bool

def Policy.reclaiming : Policy where
  release := Arena.release
  collect := Arena.collect
  isAlive := fun a h held => a.isAlive h (a.living h held.values) held.scopes

/-- A scope that has ended is noted as such, and nothing is ever freed. -/
def Policy.keeping : Policy where
  release := fun a _ _ id => a.retire id
  collect := fun a _ _ => a
  isAlive := fun _ _ _ _ => true

/-- A policy that keeps arenas safe, and that takes no handle that is there for one that is gone. -/
structure Policy.Sound (p : Policy) : Prop where
  sees : ∀ {a : Arena} {h : Heap} {held : Holders} (η : Handle),
    η.Alive (a.refs h held) → p.isAlive a h held η = true
  release : ∀ {a : Arena} {h : Heap} {held : Holders}, Safe a h held →
    ∀ id, Safe (p.release a h held id) h held ∧ (p.release a h held id).realm = a.realm
  collect : ∀ {a : Arena} {h : Heap} {held : Holders}, Safe a h held →
    Safe (p.collect a h held) h held ∧ (p.collect a h held).realm = a.realm

theorem Policy.Sound.reclaiming : Policy.reclaiming.Sound where
  sees _ alive := Arena.isAlive_iff.2 alive
  release safe id :=
    ⟨safe.release id, (sweeps_release safe id).realm.trans (Arena.realm_retire _ id)⟩
  collect safe := ⟨safe.collect, (sweeps_collect safe).realm⟩

theorem Policy.Sound.keeping : Policy.keeping.Sound where
  sees _ _ := rfl
  release safe id := ⟨safe.retire id, Arena.realm_retire _ id⟩
  collect safe := ⟨safe, rfl⟩

/-- A change of bindings through a scope. -/
inductive Edit where
  | write
  | declareVar
  | declare (kind : DeclKind)
  | declareFunction

/-- The operation of a change; `declareVar` tells whether it declared. -/
def Edit.op (id : ScopeId) (name : String) (value : Value) : Edit → Arena.Op Bool
  | .write => do Arena.write id name value; return true
  | .declareVar => Arena.declareVar id name value
  | .declare kind => do Arena.declare kind id name value; return true
  | .declareFunction => do Arena.declareFunction id name value; return true

/-- What a desk can be asked for. Scopes are given by number, and what is made is kept. -/
inductive Request where
  | push (kind : ScopeKind) (under : Nat)
  | release (n : Nat)
  | collect
  /-- Takes a handle of a scope. -/
  | capture (n : Nat)
  | drop (handle : Nat)
  | keep (v : Value)
  | forget (kept : Nat)
  | edit (e : Edit) (n : Nat) (name : String) (v : Value)
  | read (n : Nat) (name : String)
  | lookup (n : Nat) (name : String)
  | hoist (n : Nat)
  | makeArray (elements : Array Value)
  | makeObject (o : Object)
  | makeClosure (name : String) (fn : Function) (n realm : Nat)
  | makeNative (name : String) (arity : Nat) (op : Native)
  | setArray (r : ArrayRef) (elements : Array Value)
  | setObject (r : ObjectRef) (o : Object)
  | setProps (r : FunctionRef) (props : Table Value)

inductive Answer where
  | done
  | flag (b : Bool)
  | value (v : Value)
  | binding (owner : Option Nat) (b : Binding)
  | missing
  | scope (n : Option Nat)
  | refused (c : Cause)

namespace Desk

/-- The record of a number. -/
def recordAt : List ScopeId → Nat → ScopeId
  | [], _ => Arena.root
  | id :: rest, n => if n = rest.length then id else recordAt rest n

/-- The latest number of a record. -/
def latest? : List ScopeId → ScopeId → Option Nat
  | [], _ => none
  | x :: rest, id => if x = id then some rest.length else latest? rest id

def at_ (d : Desk) (n : Nat) : ScopeId :=
  recordAt d.scopes n

def number? (d : Desk) (id : ScopeId) : Option Nat :=
  latest? d.scopes id

def holders (d : Desk) : Holders where
  scopes := d.handles.map d.at_
  values := d.values

/-- Keeps a value that was made. -/
def deliver (d : Desk) (v : Value) (heap : Heap) : Answer × Desk :=
  (.value v, { d with heap := heap, values := v :: d.values })

/-- The handle of a scope, and the arena with it. -/
def captured (p : Policy) (d : Desk) (n : Nat) : Handle × Arena :=
  d.arena.capture (d.at_ n) (p.isAlive d.arena d.heap d.holders)

def step (p : Policy) (d : Desk) : Request → Answer × Desk
  | .push kind under =>
    let opened := d.arena.push kind (d.at_ under) (p.isAlive d.arena d.heap d.holders)
    (.scope d.scopes.length, { d with arena := opened.2, scopes := opened.1 :: d.scopes })
  | .release n => (.done, { d with arena := p.release d.arena d.heap d.holders (d.at_ n) })
  | .collect => (.done, { d with arena := p.collect d.arena d.heap d.holders })
  | .capture n =>
    (.done, { d with arena := (d.captured p n).2, handles := n :: d.handles })
  | .drop handle => (.done, { d with handles := d.handles.eraseIdx handle })
  | .keep v => (.done, { d with values := v :: d.values })
  | .forget kept => (.done, { d with values := d.values.eraseIdx kept })
  | .edit e n name v =>
    match e.op (d.at_ n) name v d.arena with
    | .ok b arena => (.flag b, { d with arena := arena })
    | .error c arena => (.refused c, { d with arena := arena })
  | .read n name =>
    match d.arena.read (d.at_ n) name with
    | .ok v => (.value v, d)
    | .error c => (.refused c, d)
  | .lookup n name =>
    match d.arena.lookup? (d.at_ n) name with
    | some (owner, b) => (.binding (d.number? owner) b, d)
    | none => (.missing, d)
  | .hoist n => (.scope (d.number? (d.arena.hoistTarget (d.at_ n))), d)
  | .makeArray elements =>
    let made := d.heap.newArray elements
    d.deliver (.array made.1) made.2
  | .makeObject o =>
    let made := d.heap.newObject o
    d.deliver (.object made.1) made.2
  | .makeClosure name fn n realm =>
    let captured := d.captured p n
    let made := d.heap.newFunction { name := name, callable := .closure fn captured.1 realm }
    { d with arena := captured.2 }.deliver (.function made.1) made.2
  | .makeNative name arity op =>
    let made := d.heap.newFunction { name := name, callable := .native arity op }
    d.deliver (.function made.1) made.2
  | .setArray r elements => (.done, { d with heap := d.heap.modifyArray r fun _ => elements })
  | .setObject r o => (.done, { d with heap := d.heap.modifyObject r fun _ => o })
  | .setProps r props =>
    (.done, { d with heap := d.heap.modifyFunction r fun f => { f with props := props } })

/-- The answers to requests in order, and the desk afterwards. -/
def run (p : Policy) (d : Desk) : List Request → List Answer × Desk
  | [] => ([], d)
  | request :: rest =>
    let first := d.step p request
    let later := first.2.run p rest
    (first.1 :: later.1, later.2)

/-! ### What may be asked for -/

/-- What a running scope, a handle or a kept value leads to. -/
def Holds (d : Desk) (x : Holding) : Prop :=
  Held d.arena d.heap d.holders x

/-- A scope that is held. -/
def HoldsScope (d : Desk) (n : Nat) : Prop :=
  n < d.scopes.length ∧ d.Holds (.scope (d.at_ n))

/-- A value that is no container, or a container that is held. -/
def Owns (d : Desk) (v : Value) : Prop :=
  ∀ x, Holding.ofValue? v = some x → d.Holds x

/-- The properties and the prototype of an object are owned. -/
def OwnsObject (d : Desk) (o : Object) : Prop :=
  (∀ v ∈ o.props.values, d.Owns v) ∧ ∀ p, o.prototype = some p → d.Holds (.object p)

/-- What may be asked for: only scopes that are held, and only values that are owned. -/
def Allows (d : Desk) : Request → Prop
  | .push _ n | .capture n | .read n _ | .lookup n _ | .hoist n => d.HoldsScope n
  | .release n => n < d.scopes.length ∧ (d.arena.record (d.at_ n)).phase = .running
  | .collect | .drop _ | .forget _ => True
  | .keep v => d.Owns v
  | .edit _ n _ v => d.HoldsScope n ∧ d.Owns v
  | .makeArray elements => ∀ v ∈ elements, d.Owns v
  | .makeObject o => d.OwnsObject o
  | .makeClosure _ _ n _ => d.HoldsScope n
  | .makeNative name arity op =>
    ∀ v ∈ Heap.keptBy { name := name, callable := .native arity op }, d.Owns v
  | .setArray _ elements => ∀ v ∈ elements, d.Owns v
  | .setObject _ o => d.OwnsObject o
  | .setProps _ props => ∀ v ∈ props.values, d.Owns v

/-- Every request may be asked for when its turn comes. What is held is told by the desk that never
frees a record. -/
def Lawful (d : Desk) : List Request → Prop
  | [] => True
  | request :: rest => d.Allows request ∧ (d.step .keeping request).2.Lawful rest

theorem safe_new (realm : Nat) : Safe (Arena.new realm) {} {} where
  tidy := Arena.tidy_new realm
  chartered := Arena.chartered_new realm
  linked := Arena.linked_new realm _
  pinned r f id found := by simp [Heap.function?] at found
  scopes id member := absurd member List.not_mem_nil
  current r f η holds found := by simp [Heap.function?] at found

/-! ### Numbers -/

variable {rest : List ScopeId} {id x : ScopeId} {n : Nat}

@[simp] theorem recordAt_length (id : ScopeId) (rest : List ScopeId) :
    recordAt (id :: rest) rest.length = id := by
  simp [recordAt]

theorem recordAt_cons (earlier : n < rest.length) : recordAt (id :: rest) n = recordAt rest n := by
  simp [recordAt, Nat.ne_of_lt earlier]

theorem latest?_cons (apart : x ≠ id) : latest? (id :: rest) x = latest? rest x := by
  simp [latest?, Ne.symm apart]

theorem holders_push {d : Desk} (handles : ∀ n ∈ d.handles, n < d.scopes.length) (p : Policy)
    (kind : ScopeKind) (n : Nat) : (d.step p (.push kind n)).2.holders = d.holders := by
  simp only [holders, step, Holders.mk.injEq, and_true]
  exact List.map_congr_left fun m member => recordAt_cons (handles m member)

theorem owns_value {d : Desk} {v : Value} (member : v ∈ d.values) : d.Owns v :=
  fun _ refers => .root (.value member refers)

/-! ### Requests keep a desk sound -/

/-- What may be asked for: scopes are opened, captured and closed over where they are held, and
values are owned. Everything else may be asked for at any time, the end of any scope included. -/
def Grants (d : Desk) : Request → Prop
  | .push _ n | .capture n | .makeClosure _ _ n _ => d.HoldsScope n
  | .keep v | .edit _ _ _ v => d.Owns v
  | .makeArray elements | .setArray _ elements => ∀ v ∈ elements, d.Owns v
  | .makeObject o | .setObject _ o => d.OwnsObject o
  | .makeNative name arity op =>
    ∀ v ∈ Heap.keptBy { name := name, callable := .native arity op }, d.Owns v
  | .setProps _ props => ∀ v ∈ props.values, d.Owns v
  | .release _ | .collect | .drop _ | .forget _ | .read _ _ | .lookup _ _ | .hoist _ => True

/-- What a desk asks for is sound: what is held is there, handles are of scopes that were opened,
and closures are made in scopes of the arena. -/
structure Sound (d : Desk) : Prop where
  safe : Safe d.arena d.heap d.holders
  handles : ∀ n ∈ d.handles, n < d.scopes.length
  own : ∀ r f η, d.heap.function? r = some f → Heap.handleOf? f = some η →
    η.realm? = some d.arena.realm

theorem sound_new : Sound {} :=
  ⟨safe_new 0, by simp, fun r f η found => by simp [Heap.function?] at found⟩

/-- What an operation on bindings does to an arena: nothing, or one binding gets the value. -/
inductive Sets (v : Value) (a : Arena) : Arena → Prop where
  | nothing : Sets v a a
  | bind (id : ScopeId) (name : String) (kind : DeclKind) : Sets v a (a.bind id name ⟨v, kind⟩)

theorem Sets.safe {v : Value} {a b : Arena} {h : Heap} {held : Holders} (sets : Sets v a b)
    (safe : Safe a h held) (owned : ∀ x, Holding.ofValue? v = some x → Held a h held x) :
    Safe b h held := by
  cases sets with
  | nothing => exact safe
  | bind id name kind => exact safe.bind id name owned

theorem Sets.realm {v : Value} {a b : Arena} (sets : Sets v a b) : b.realm = a.realm := by
  cases sets with
  | nothing => rfl
  | bind => exact Arena.realm_bind ..

theorem Sets.slots {v : Value} {a b : Arena} (sets : Sets v a b) :
    b.records.size = a.records.size ∧ b.free = a.free := by
  cases sets with
  | nothing => exact ⟨rfl, rfl⟩
  | bind => exact ⟨Arena.size_bind .., rfl⟩

/-- The arena after an operation, whether it was refused or not. -/
def left {α : Type} : EStateM.Result Cause Arena α → Arena
  | .ok _ a | .error _ a => a

theorem sets_write (id : ScopeId) (name : String) (v : Value) (a : Arena) :
    Sets v a (left (Arena.write id name v a)) := by
  unfold Arena.write
  split
  · exact .nothing
  · split
    · exact .nothing
    · exact .bind _ name _

theorem sets_declareVar (id : ScopeId) (name : String) (v : Value) (a : Arena) :
    Sets v a (left (Arena.declareVar id name v a)) := by
  simp only [Arena.declareVar]
  split
  · exact .nothing
  · exact .bind _ name .var

theorem sets_declareOwn (kind : DeclKind) (id : ScopeId) (name : String) (v : Value) (a : Arena) :
    Sets v a (left (Arena.declareOwn kind id name v a)) := by
  unfold Arena.declareOwn
  split
  · exact .nothing
  · exact .bind id name kind

theorem sets_declareFunction (id : ScopeId) (name : String) (v : Value) (a : Arena) :
    Sets v a (left (Arena.declareFunction id name v a)) := by
  unfold Arena.declareFunction
  split
  · exact .nothing
  · exact .nothing
  · exact .bind id name .var

theorem left_then {α β : Type} (op : Arena.Op α) (x : β) (a : Arena) :
    left ((do let _ ← op; return x : Arena.Op β) a) = left (op a) := by
  simp only [bind, EStateM.bind, pure, EStateM.pure]
  cases op a <;> rfl

theorem sets_edit (e : Edit) (id : ScopeId) (name : String) (v : Value) (a : Arena) :
    Sets v a (left (e.op id name v a)) := by
  cases e with
  | write =>
    rw [Edit.op, left_then]
    exact sets_write id name v a
  | declareVar => exact sets_declareVar id name v a
  | declare kind =>
    rw [Edit.op, left_then]
    cases kind with
    | var =>
      have same : left (Arena.declare .var id name v a) = left (Arena.declareVar id name v a) :=
        left_then (Arena.declareVar id name v) () a
      rw [same]
      exact sets_declareVar id name v a
    | let_ => exact sets_declareOwn .let_ id name v a
    | const => exact sets_declareOwn .const id name v a
  | declareFunction =>
    rw [Edit.op, left_then]
    exact sets_declareFunction id name v a

/-- What a request does to the arena. -/
inductive ArenaStep (p : Policy) (d : Desk) (request : Request) (b : Arena) : Prop where
  | same : b = d.arena → ArenaStep p d request b
  | sets {v : Value} : Sets v d.arena b → ArenaStep p d request b
  | opened {kind : ScopeKind} {n : Nat} {η : Handle} : request = .push kind n →
      b = (d.arena.openUnder kind (d.at_ n) η).2 → ArenaStep p d request b
  | released {id : ScopeId} : b = p.release d.arena d.heap d.holders id → ArenaStep p d request b
  | collected : b = p.collect d.arena d.heap d.holders → ArenaStep p d request b

namespace Sound

variable {d : Desk} {p : Policy} (sound : d.Sound) (policy : p.Sound)

include sound

theorem holdsScope {n : Nat} (member : n ∈ d.handles) : d.HoldsScope n :=
  ⟨sound.handles n member, .root (.handle (List.mem_map_of_mem member))⟩

/-- Handles and kept values may change as long as they hold nothing that was not held. -/
theorem regard {handles : List Nat} {values : List Value} (scopes : ∀ n ∈ handles, d.HoldsScope n)
    (owned : ∀ v ∈ values, d.Owns v) : Sound { d with handles := handles, values := values } where
  safe := by
    refine sound.safe.regard (fun id member => ?_) owned
    obtain ⟨n, there, rfl⟩ := List.mem_map.1 member
    exact (scopes n there).2
  handles n member := (scopes n member).1
  own := sound.own

/-- A container that is made of what is held, and kept. -/
theorem deliver {v : Value} {made : Holding} {heap : Heap}
    (delivered : Holding.ofValue? v = some made)
    (others : ∀ x, x ≠ made → Unchanged d.arena d.arena d.heap heap x)
    (content : ∀ y, Refers d.arena heap made y → d.Holds y)
    (there : ∀ x ∈ heap.holdings, x ∈ d.heap.holdings ∨ x = made)
    (closure : ∀ r f η, made = .function r → heap.function? r = some f → Heap.handleOf? f = some η →
      ∃ id, d.Holds (.scope id) ∧ (d.arena.record id).handle? = some η) :
    Sound (d.deliver v heap).2 where
  safe := sound.safe.make delivered others content there closure
  handles := sound.handles
  own r f η found handle := by
    by_cases new : made = .function r
    · obtain ⟨id, -, known⟩ := closure r f η new found handle
      exact sound.safe.chartered.realm known
    · have same : heap.function? r = d.heap.function? r := others _ (Ne.symm new)
      exact sound.own r f η (same ▸ found) handle

/-- A container that is filled with what is held. -/
theorem fill {touched : Holding} {heap : Heap} (container : ∀ id, touched ≠ .scope id)
    (others : ∀ x, x ≠ touched → Unchanged d.arena d.arena d.heap heap x)
    (content : ∀ y, Refers d.arena heap touched y → d.Holds y ∨ Refers d.arena d.heap touched y)
    (there : heap.holdings = d.heap.holdings)
    (closure : ∀ r, (heap.function? r).bind Heap.handleOf? =
      (d.heap.function? r).bind Heap.handleOf?) :
    Sound { d with heap := heap } where
  safe := sound.safe.fill container others content (fun _ inside => there ▸ inside) closure
  handles := sound.handles
  own r f η found handle := by
    have known : (d.heap.function? r).bind Heap.handleOf? = some η := by
      rw [← closure r, show heap.function? r = some f from found, Option.bind_some, handle]
    obtain ⟨g, before, same⟩ := Option.bind_eq_some_iff.1 known
    exact sound.own r g η before same

theorem makeFunction {f : FunctionObject} (props : f.props = {})
    (scope : ∀ η, Heap.handleOf? f = some η →
      ∃ id, d.Holds (.scope id) ∧ (d.arena.record id).handle? = some η)
    (owned : ∀ v ∈ Heap.keptBy f, d.Owns v) :
    Sound (d.deliver (.function (d.heap.newFunction f).1) (d.heap.newFunction f).2).2 := by
  refine sound.deliver rfl (fun x => unchanged_newFunction f) (fun y refers => ?_)
    (fun x => of_mem_holdings_newFunction) fun r g η made found handle => ?_
  · rcases refers.of_newFunction with ⟨v, member, refers⟩ | ⟨η, made, rfl⟩
    · rw [props] at member
      exact owned v member y refers
    · obtain ⟨id, holds, known⟩ := scope η made
      rwa [sound.safe.chartered.scope known]
  · cases made
    obtain rfl : f = g := by simpa [Heap.function?, Heap.newFunction] using found
    exact scope η handle

theorem edit {e : Edit} {n : Nat} {name : String} {v : Value} (owned : d.Owns v) :
    Sound (d.step p (.edit e n name v)).2 ∧
    Sets v d.arena (d.step p (.edit e n name v)).2.arena := by
  have sets := sets_edit e (d.at_ n) name v d.arena
  have same : (d.step p (.edit e n name v)).2 =
      { d with arena := left (e.op (d.at_ n) name v d.arena) } := by
    simp only [Desk.step]
    cases e.op (d.at_ n) name v d.arena <;> rfl
  rw [same]
  exact ⟨⟨sets.safe sound.safe owned, sound.handles, sets.realm ▸ sound.own⟩, sets⟩

include policy

/-- A held scope is captured by the handle that it has. -/
theorem captured_eq {n : Nat} (held : d.HoldsScope n) :
    ∃ η, (d.arena.record (d.at_ n)).handle? = some η ∧ d.captured p n = (η, d.arena) := by
  obtain ⟨η, moored, -⟩ := sound.safe.moored policy.sees held.2
  exact ⟨η, moored.1, Arena.capture_eq moored⟩

/-- A scope is opened under a held one with the handle that this has. -/
theorem push_eq {n : Nat} (held : d.HoldsScope n) (kind : ScopeKind) :
    ∃ η, (d.arena.record (d.at_ n)).handle? = some η ∧
      d.arena.push kind (d.at_ n) (p.isAlive d.arena d.heap d.holders) =
        d.arena.openUnder kind (d.at_ n) η := by
  obtain ⟨η, moored, -⟩ := sound.safe.moored policy.sees held.2
  exact ⟨η, moored.1, Arena.push_eq kind moored⟩

theorem push (kind : ScopeKind) {n : Nat} (under : d.HoldsScope n) :
    Sound (d.step p (.push kind n)).2 ∧
      ArenaStep p d (.push kind n) (d.step p (.push kind n)).2.arena := by
  have holders : (d.step p (.push kind n)).2.holders = d.holders := holders_push sound.handles ..
  obtain ⟨η, handle, opened⟩ := sound.push_eq policy under kind
  have arena : (d.step p (.push kind n)).2.arena = (d.arena.openUnder kind (d.at_ n) η).2 :=
    congrArg Prod.snd opened
  refine ⟨⟨?_, fun m member => Nat.lt_succ_of_lt (sound.handles m member), ?_⟩, .opened rfl arena⟩
  · rw [holders, arena]
    exact sound.safe.openUnder kind under.2 handle
  · rw [arena, Arena.realm_openUnder]
    exact sound.own

/-- Every request that is granted keeps a desk sound, and is told by what it does to the arena. -/
theorem step_spec {request : Request} (granted : d.Grants request) :
    Sound (d.step p request).2 ∧ ArenaStep p d request (d.step p request).2.arena := by
  cases request with
  | push kind n => exact sound.push policy kind granted
  | release n =>
    obtain ⟨safe, realm⟩ := policy.release sound.safe (d.at_ n)
    exact ⟨⟨safe, sound.handles, realm ▸ sound.own⟩, .released rfl⟩
  | collect =>
    obtain ⟨safe, realm⟩ := policy.collect sound.safe
    exact ⟨⟨safe, sound.handles, realm ▸ sound.own⟩, .collected rfl⟩
  | capture n =>
    obtain ⟨η, -, captured⟩ := sound.captured_eq policy granted
    simp only [Desk.step, captured]
    refine ⟨sound.regard (fun m member => ?_) fun v member => owns_value member, .same rfl⟩
    rcases List.mem_cons.1 member with rfl | old
    · exact granted
    · exact sound.holdsScope old
  | drop handle =>
    exact ⟨sound.regard (fun m member => sound.holdsScope (List.mem_of_mem_eraseIdx member))
      fun v => owns_value, .same rfl⟩
  | keep v =>
    refine ⟨sound.regard (fun m => sound.holdsScope) fun w member => ?_, .same rfl⟩
    rcases List.mem_cons.1 member with rfl | old
    · exact granted
    · exact owns_value old
  | forget kept =>
    exact ⟨sound.regard (fun m => sound.holdsScope)
      fun v member => owns_value (List.mem_of_mem_eraseIdx member), .same rfl⟩
  | edit e n name v => exact ⟨(sound.edit granted).1, .sets (sound.edit granted).2⟩
  | read n name =>
    simp only [Desk.step]
    split <;> exact ⟨sound, .same rfl⟩
  | lookup n name =>
    simp only [Desk.step]
    split <;> exact ⟨sound, .same rfl⟩
  | hoist n => exact ⟨sound, .same rfl⟩
  | makeArray elements =>
    refine ⟨sound.deliver rfl (fun x => unchanged_newArray elements) (fun y refers => ?_)
      (fun x => of_mem_holdings_newArray) (fun r f η made => by cases made), .same rfl⟩
    obtain ⟨v, member, refers⟩ := refers.of_newArray
    exact granted v member y refers
  | makeObject o =>
    refine ⟨sound.deliver rfl (fun x => unchanged_newObject o) (fun y refers => ?_)
      (fun x => of_mem_holdings_newObject) (fun r f η made => by cases made), .same rfl⟩
    rcases refers.of_newObject with ⟨v, member, refers⟩ | ⟨p, above, rfl⟩
    · exact granted.1 v member y refers
    · exact granted.2 p above
  | makeClosure name fn n realm =>
    obtain ⟨η, known, captured⟩ := sound.captured_eq policy granted
    simp only [Desk.step, captured]
    refine ⟨sound.makeFunction (f := { name := name, callable := .closure fn η realm }) rfl
      (fun θ made => ?_) (by simp [Heap.keptBy]), .same rfl⟩
    cases made
    exact ⟨_, granted.2, known⟩
  | makeNative name arity op =>
    exact ⟨sound.makeFunction rfl (fun η made => by cases made) granted, .same rfl⟩
  | setArray r elements =>
    refine ⟨sound.fill (by simp) (fun x => unchanged_modifyArray (r := r) fun _ => elements)
      (fun y refers => .inl ?_) (holdings_modifyArray ..) fun _ => rfl, .same rfl⟩
    obtain ⟨v, member, refers⟩ := refers.of_setArray
    exact granted v member y refers
  | setObject r o =>
    refine ⟨sound.fill (by simp) (fun x => unchanged_modifyObject (r := r) fun _ => o)
      (fun y refers => .inl ?_) (holdings_modifyObject ..) fun _ => rfl, .same rfl⟩
    rcases refers.of_setObject with ⟨v, member, refers⟩ | ⟨p, above, rfl⟩
    · exact granted.1 v member y refers
    · exact granted.2 p above
  | setProps r props =>
    refine ⟨sound.fill (by simp) (fun x => unchanged_modifyFunction (r := r) _)
      (fun y refers => ?_) (holdings_modifyFunction ..) fun s => handleOf?_setProps .., .same rfl⟩
    refine refers.of_setProps.imp_left ?_
    rintro ⟨v, member, refers⟩
    exact granted v member y refers

theorem step {request : Request} (granted : d.Grants request) : Sound (d.step p request).2 :=
  (sound.step_spec policy granted).1

theorem arena_step {request : Request} (granted : d.Grants request) :
    ArenaStep p d request (d.step p request).2.arena :=
  (sound.step_spec policy granted).2

end Sound

/-! ### Desks that keep all records -/

/-- Every scope is in the slot of its number. -/
def Numbered : List ScopeId → Prop
  | [] => True
  | id :: rest => id.index = rest.length ∧ Numbered rest

theorem recordAt_numbered {scopes : List ScopeId} (numbered : Numbered scopes)
    (inside : n < scopes.length) : recordAt scopes n = ⟨n⟩ := by
  induction scopes with
  | nil => simp at inside
  | cons id rest ih =>
    obtain ⟨here, below⟩ := numbered
    by_cases last : n = rest.length
    · subst last
      rw [recordAt_length]
      exact ScopeId.index_inj.1 here
    · rw [List.length_cons] at inside
      have earlier : n < rest.length := by omega
      rw [recordAt_cons earlier]
      exact ih below earlier

theorem latest?_numbered {scopes : List ScopeId} (numbered : Numbered scopes)
    (inside : id.index < scopes.length) : latest? scopes id = some id.index := by
  induction scopes with
  | nil => simp at inside
  | cons x rest ih =>
    obtain ⟨here, below⟩ := numbered
    by_cases same : x = id
    · subst same
      simp [latest?, here]
    · have apart : ¬id.index = rest.length := fun equal =>
        same (ScopeId.index_inj.1 (here.trans equal.symm))
      rw [List.length_cons] at inside
      rw [latest?_cons (Ne.symm same)]
      exact ih below (by omega)

end Desk

end Scriptlet
