import Scriptlet.Fault

/-!
Scopes and their bindings.

The records of an arena form a tree under its root. Each has a handle, a counted reference that the
record itself only keeps while its scope runs. What the count of a handle is depends on who else
holds it, which `Scriptlet.Scope.Retention` says; with no reference to its handle left, a record is
free.
-/

namespace Scriptlet

/-- Whether `var` declarations stop at a scope. -/
inductive ScopeKind where
  | block
  | function
  deriving DecidableEq, Repr

structure Binding where
  value : Value
  kind : DeclKind
  deriving Repr

inductive Phase where
  | running
  /-- No longer running, but not freed. -/
  | released
  | free
  deriving DecidableEq, Repr

/-- What a record knows of its handle. -/
inductive Mooring where
  /-- There is no handle: the slot is free. -/
  | none
  /-- The handle that was made last. It is not kept, and may be gone. -/
  | weak (handle : Handle)
  /-- The handle that was made last, kept as long as the scope runs. -/
  | anchored (handle : Handle)
  deriving DecidableEq, Repr

namespace Mooring

def handle? : Mooring → Option Handle
  | none => .none
  | weak handle | anchored handle => some handle

def anchor? : Mooring → Option Handle
  | anchored handle => some handle
  | none | weak _ => .none

def phase : Mooring → Phase
  | none => .free
  | weak _ => .released
  | anchored _ => .running

/-- The handle is not kept any longer. -/
def loosened : Mooring → Mooring
  | anchored handle => weak handle
  | other => other

end Mooring

structure Record where
  kind : ScopeKind
  parent : Option ScopeId
  bindings : Table Binding := {}
  mooring : Mooring
  deriving Repr

def Record.phase (r : Record) : Phase :=
  r.mooring.phase

def Record.handle? (r : Record) : Option Handle :=
  r.mooring.handle?

def Record.anchor? (r : Record) : Option Handle :=
  r.mooring.anchor?

instance : Inhabited Record := ⟨{ kind := .block, parent := none, mooring := .none }⟩

structure Arena where
  records : Array Record
  /-- The free slots, the next to be used first. -/
  free : List ScopeId := []
  /-- The released records, the last one first. -/
  released : List ScopeId := []
  /-- How many released records there may be before they are looked through. -/
  collectAt : Nat
  /-- Tells the handles of the arena from those of others. -/
  realm : Nat
  /-- How many handles were made. -/
  made : Nat

/-- An operation on an arena that may be refused; a refused one leaves the arena as it was. -/
abbrev Arena.Op (α : Type) : Type := EStateM Cause Arena α

namespace Arena

/-- The least count of released records that makes an arena look through them. -/
def minCollectAt : Nat := 64

def root : ScopeId := ⟨0⟩

/-- An arena with its root only. -/
def new (realm : Nat := 0) : Arena where
  records := #[{ kind := .block, parent := none, mooring := .anchored (.top realm 0 root) }]
  collectAt := minCollectAt
  realm := realm
  made := 1

def record (a : Arena) (id : ScopeId) : Record :=
  a.records[id.index]?.getD default

/-- The count of allocated records. -/
def size (a : Arena) : Nat :=
  a.records.size - a.free.length

def modifyRecord (a : Arena) (id : ScopeId) (f : Record → Record) : Arena :=
  { a with records := a.records.modify id.index f }

/-! ### Life of a record -/

/-- The next handle, of the scope in a slot. -/
def nextHandle (a : Arena) (id : ScopeId) : Option Handle → Handle
  | none => .top a.realm a.made id
  | some parent => .under a.made id parent

/-- Makes a new handle for a record. -/
def renew (a : Arena) (id : ScopeId) (parent : Option Handle) : Handle × Arena :=
  let handle := a.nextHandle id parent
  (handle, { a.modifyRecord id (fun r => { r with mooring := .weak handle }) with
    made := a.made + 1 })

def captureFrom (alive : Handle → Bool) : Nat → Arena → ScopeId → Handle × Arena
  | 0, a, id => a.renew id none
  | fuel + 1, a, id =>
    let remake : Handle × Arena :=
      match (a.record id).parent with
      | none => a.renew id none
      | some parent =>
        let (above, a) := captureFrom alive fuel a parent
        a.renew id (some above)
    match (a.record id).mooring with
    | .anchored handle => (handle, a)
    | .weak handle => if alive handle then (handle, a) else remake
    | .none => remake

/-- The handle of a record, or a new one if that is gone. `alive` tells which handles are there. -/
def capture (a : Arena) (id : ScopeId) (alive : Handle → Bool := fun _ => true) : Handle × Arena :=
  captureFrom alive a.records.size a id

/-- Opens a scope under `parent`, the handle of which is given. -/
def openUnder (a : Arena) (kind : ScopeKind) (parent : ScopeId) (above : Handle) :
    ScopeId × Arena :=
  let fresh (id : ScopeId) : Record :=
    { kind := kind, parent := some parent, mooring := .anchored (a.nextHandle id (some above)) }
  match a.free with
  | slot :: free =>
    (slot, { a with
      records := a.records.setIfInBounds slot.index (fresh slot), free := free, made :=
        a.made + 1 })
  | [] =>
    let slot : ScopeId := ⟨a.records.size⟩
    (slot, { a with records := a.records.push (fresh slot), made := a.made + 1 })

/-- Opens a scope under `parent`. -/
def push (a : Arena) (kind : ScopeKind) (parent : ScopeId)
    (alive : Handle → Bool := fun _ => true) :
    ScopeId × Arena :=
  let (above, a) := a.capture parent alive
  a.openUnder kind parent above

/-- The scope does not keep its handle any longer; the root always does. -/
def loosen (a : Arena) (id : ScopeId) : Arena :=
  if id == root then a
  else a.modifyRecord id fun r => { r with mooring := r.mooring.loosened }

/-- Frees the slot of a record, with its bindings. -/
def dispose (a : Arena) (id : ScopeId) : Arena :=
  let cleared (r : Record) : Record := { kind := r.kind, parent := none, mooring := .none }
  let a := a.modifyRecord id cleared
  { a with free := id :: a.free }

/-- Ends a running scope, and notes that its record was released; the root never ends. -/
def retire (a : Arena) (id : ScopeId) : Arena :=
  if id == root || (a.record id).phase != .running then a
  else { a.loosen id with released := id :: a.released }

/-! ### Bindings -/

def binds (a : Arena) (id : ScopeId) (name : String) : Bool :=
  (a.record id).bindings.contains name

/-- Sets a binding of a record. -/
def bind (a : Arena) (id : ScopeId) (name : String) (b : Binding) : Arena :=
  a.modifyRecord id fun r => { r with bindings := r.bindings.insert name b }

def hoistFrom (a : Arena) : Nat → ScopeId → ScopeId
  | 0, id => id
  | fuel + 1, id =>
    let r := a.record id
    match r.kind, r.parent with
    | .block, some parent => hoistFrom a fuel parent
    | _, _ => id

/-- The scope that `var` declarations in a scope belong to. -/
def hoistTarget (a : Arena) (id : ScopeId) : ScopeId :=
  a.hoistFrom a.records.size id

def lookupFrom (a : Arena) (name : String) : Nat → ScopeId → Option (ScopeId × Binding)
  | 0, _ => none
  | fuel + 1, id =>
    let r := a.record id
    match r.bindings.get? name with
    | some b => some (id, b)
    | none =>
      match r.parent with
      | some parent => lookupFrom a name fuel parent
      | none => none

/-- The nearest binding of a name, with the record that holds it. -/
def lookup? (a : Arena) (id : ScopeId) (name : String) : Option (ScopeId × Binding) :=
  a.lookupFrom name a.records.size id

def read (a : Arena) (id : ScopeId) (name : String) : Except Cause Value :=
  match a.lookup? id name with
  | some (_, b) => .ok b.value
  | none => .error (.unbound name)

/-- Assigns to the nearest binding of a name. -/
def write (id : ScopeId) (name : String) (value : Value) : Op Unit := fun a =>
  match a.lookup? id name with
  | none => .error (.unbound name) a
  | some (owner, b) =>
    if b.kind = .const then .error (.constantAssigned name) a
    else .ok () (a.bind owner name { b with value := value })

/-- Declares a `var` unless its scope binds the name already; tells whether it did. -/
def declareVar (id : ScopeId) (name : String) (value : Value) : Op Bool := fun a =>
  let target := a.hoistTarget id
  if a.binds target name then .ok false a
  else .ok true (a.bind target name ⟨value, .var⟩)

/-- Declares a name in the scope itself. -/
def declareOwn (kind : DeclKind) (id : ScopeId) (name : String) (value : Value) :
    Op Unit := fun a =>
  if a.binds id name then .error (.redeclared name) a
  else .ok () (a.bind id name ⟨value, kind⟩)

def declare (kind : DeclKind) (id : ScopeId) (name : String) (value : Value) : Op Unit :=
  match kind with
  | .var => do discard (declareVar id name value)
  | .let_ => declareOwn .let_ id name value
  | .const => declareOwn .const id name value

/-- Declares a function in the scope itself, in place of an earlier `var` or function. -/
def declareFunction (id : ScopeId) (name : String) (value : Value) : Op Unit := fun a =>
  match (a.record id).bindings.get? name with
  | some ⟨_, .let_⟩ | some ⟨_, .const⟩ => .error (.redeclared name) a
  | _ => .ok () (a.bind id name ⟨value, .var⟩)

/-- Gives a `var` its value, declaring it if need be. -/
def initVar (id : ScopeId) (name : String) (value : Value) : Op Unit := do
  unless ← declareVar id name value do
    write id name value

end Arena

end Scriptlet
