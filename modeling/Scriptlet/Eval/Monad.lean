import Scriptlet.Scope.Retention

/-!
Computations of the evaluator.

A computation takes a state and ends in one of three ways: with a value, with a fault, or by being
given up, for lack of fuel or because a value turns up that was lost. Each keeps the state that was
reached; a fault does not undo anything, and nothing is done any more once a computation is given
up.

How many references there are to a value also depends on the variables of the interpreter and on its
host. These references are not part of a state: a realm is told of them whenever a scope ends. As
nothing comes back to a value to which there is no reference, what was told is wrong if a function
is used that nothing led to at the end of an earlier scope.
-/

namespace Scriptlet

/-- The functions behind the methods of values that have no such property of their own. -/
structure Methods where
  array : Table FunctionRef := {}
  text : Table FunctionRef := {}
  number : Table FunctionRef := {}
  function : Table FunctionRef := {}
  object : Table FunctionRef := {}
  deriving Inhabited

/-- What stays the same while the programs of one interpreter run. -/
structure Realm where
  /-- Tells its closures from those of other realms. -/
  id : Nat
  methods : Methods
  /-- How many calls of script functions may be nested. -/
  maxDepth : Nat
  /-- The values that are referred to from elsewhere when a scope ends, for each end of a scope. If
  it is not known, scopes that have ended stay allocated. -/
  outside : Option (Nat → List Value) := none
  deriving Inhabited

/-- What was out of reach when a scope ended. -/
structure Memory where
  /-- The containers that were dropped. -/
  dropped : List Holding := []
  /-- The functions that nothing led to, dropped or not. -/
  lost : List FunctionRef := []
  /-- How many scopes have ended. -/
  ends : Nat := 0

structure State where
  heap : Heap
  scopes : Arena
  realm : Realm
  memory : Memory := {}
  /-- How many calls of script functions are under way. -/
  depth : Nat := 0
  /-- The lines that were printed, the last one first. -/
  console : List String := []

inductive Outcome (α : Type) where
  | ok (value : α) (state : State)
  | fault (fault : Fault) (state : State)
  | exhausted (state : State)

def Eval (α : Type) : Type := State → Outcome α

namespace Eval

variable {α β : Type}

@[always_inline, inline]
protected def pure (a : α) : Eval α := fun s => .ok a s

@[always_inline, inline]
protected def bind (m : Eval α) (f : α → Eval β) : Eval β := fun s =>
  match m s with
  | .ok a s => f a s
  | .fault e s => .fault e s
  | .exhausted s => .exhausted s

@[always_inline]
instance : Monad Eval where
  pure := Eval.pure
  bind := Eval.bind

/-- Gives up for lack of fuel. -/
def exhausted : Eval α := fun s => .exhausted s

@[always_inline, inline]
def raise (c : Cause) : Eval α := fun s => .fault { cause := c } s

@[always_inline, inline]
def typeFault (f : TypeFault) : Eval α := raise (.type f)

@[always_inline, inline]
def rangeFault (f : RangeFault) : Eval α := raise (.range f)

/-- Gives a place to a fault that has none. -/
@[always_inline, inline]
def located (span : Span) (m : Eval α) : Eval α := fun s =>
  match m s with
  | .ok a s => .ok a s
  | .fault e s => .fault (e.located span) s
  | .exhausted s => .exhausted s

/-- Continues after a fault. -/
@[always_inline, inline]
def recover (m : Eval α) (f : Fault → Eval α) : Eval α := fun s =>
  match m s with
  | .ok a s => .ok a s
  | .fault e s => f e s
  | .exhausted s => .exhausted s

/-- Reads the state. -/
@[always_inline, inline]
def gets (f : State → α) : Eval α := fun s => .ok (f s) s

@[always_inline, inline]
def modify (f : State → State) : Eval Unit := fun s => .ok () (f s)

/-- Changes the state on the way out, whether by a value or by a fault. -/
@[always_inline, inline]
def after (m : Eval α) (f : State → State) : Eval α := fun s =>
  match m s with
  | .ok a s => .ok a (f s)
  | .fault e s => .fault e (f s)
  | .exhausted s => .exhausted s

/-! ### The heap -/

def newArray (elements : Array Value) : Eval Value := fun s =>
  let (r, heap) := s.heap.newArray elements
  .ok (.array r) { s with heap := heap }

def newObject (o : Object) : Eval ObjectRef := fun s =>
  let (r, heap) := s.heap.newObject o
  .ok r { s with heap := heap }

def newFunction (f : FunctionObject) : Eval Value := fun s =>
  let (r, heap) := s.heap.newFunction f
  .ok (.function r) { s with heap := heap }

@[always_inline, inline]
def modifyHeap (f : Heap → Heap) : Eval Unit := fun s =>
  .ok () { s with heap := f s.heap }

/-! ### Scopes -/

/-- Runs an operation on the arena. -/
@[always_inline, inline]
def onScopes (op : Arena.Op α) : Eval α := fun s =>
  let ⟨heap, scopes, realm, memory, depth, console⟩ := s
  match op scopes with
  | .ok a scopes => .ok a ⟨heap, scopes, realm, memory, depth, console⟩
  | .error c scopes => .fault { cause := c } ⟨heap, scopes, realm, memory, depth, console⟩

end Eval

namespace State

/-- The containers that were not dropped. -/
def living (s : State) : List Holding :=
  s.heap.holdings.filter fun x => decide (x ∉ s.memory.dropped)

/-- Whether a handle is there. -/
def isAlive (s : State) (x : Handle) : Bool :=
  match s.realm.outside with
  | none => true
  | some _ => s.scopes.isAlive s.heap s.living [] x

/-- The state once a scope has ended. There is none if something turns up that was lost. -/
def closed (s : State) (id : ScopeId) : Option State :=
  match s.realm.outside with
  | none => some { s with scopes := s.scopes.retire id }
  | some outside =>
    let held : Holders := { values := outside s.memory.ends }
    let living := s.scopes.living s.heap held.values
    let reached := (s.scopes.loosen id).retained s.heap held
    if (∀ x ∈ s.memory.dropped, x ∉ living) ∧ ∀ r ∈ s.memory.lost, .function r ∉ reached then
      let functions := (List.range s.heap.functions.size).map FunctionRef.mk
      some { s with
        scopes := s.scopes.release s.heap held id
        memory := {
          dropped := s.heap.holdings.filter fun x => decide (x ∉ living)
          lost := functions.filter fun r => decide (.function r ∉ reached)
          ends := s.memory.ends + 1 } }
    else none

end State

namespace Eval

variable {α : Type}

/-- The handle of a scope, for a function that is made in it. -/
def capture (env : ScopeId) : Eval Handle := fun s =>
  let (handle, scopes) := s.scopes.capture env s.isAlive
  .ok handle { s with scopes := scopes }

/-- Ends a scope on the way out, whether by a value or by a fault. -/
@[always_inline, inline]
def closing (id : ScopeId) (m : Eval α) : Eval α := fun s =>
  match m s with
  | .ok a s =>
    match s.closed id with
    | some s => .ok a s
    | none => .exhausted s
  | .fault e s =>
    match s.closed id with
    | some s => .fault e s
    | none => .exhausted s
  | .exhausted s => .exhausted s

/-- Runs `body` in a fresh scope, which ends with it. -/
@[always_inline, inline]
def inScope (kind : ScopeKind) (parent : ScopeId) (body : ScopeId → Eval α) : Eval α := fun s =>
  let (id, scopes) := s.scopes.push kind parent s.isAlive
  closing id (body id) { s with scopes := scopes }

end Eval

end Scriptlet
