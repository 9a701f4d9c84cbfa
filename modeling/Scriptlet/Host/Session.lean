import Scriptlet.Eval.Run
import Scriptlet.Host.Blueprint
import Scriptlet.Host.Globals
import Scriptlet.Parse

/-!
Running scripts for a host.

A session keeps the scopes of an interpreter between programs, so what one program declares is there
for the next. Sessions of one world share a heap and a console, so values can pass between them;
functions cannot be called in a session that did not make them.
-/

namespace Scriptlet

/-- The name under which a script finds what its host gave it. -/
def hostName : String := "$runjs"

/-- What a host chooses before it runs a script. -/
structure Options where
  /-- What is bound to the host's name; a fresh object if there is nothing. -/
  host : Option Blueprint := none
  /-- Whether the standard globals are there. -/
  standard : Bool := true
  /-- Further globals, each in place of an earlier one of its name. -/
  globals : List (String × Blueprint) := []
  parse : ParseOptions := {}
  maxDepth : Nat := 1000
  /-- The values that are referred to from elsewhere whenever a scope ends, if they are known. -/
  outside : Option (Nat → List Value) := none

structure Session where
  scopes : Arena
  realm : Realm
  memory : Memory := {}
  parse : ParseOptions

structure World where
  heap : Heap := {}
  sessions : Array Session := #[]
  /-- The lines that were printed, the last one first. -/
  console : List String := []

/-- How a computation of a session ends. -/
inductive Ending (α : Type) where
  | done (value : α)
  | failed (fault : Fault)
  | exhausted

namespace Session

/-- The globals of a session. -/
def globals (o : Options) : StateM Heap (Table Value) := do
  let start : Table Value ← if o.standard then Globals.standard else pure {}
  let more ← Blueprint.buildEntries o.globals
  return more.foldl (fun t e => t.insert e.1 e.2) start

/-- Builds what a session starts with: its globals, the host's value and the methods of values. -/
def prepare (o : Options) : StateM Heap (Table Value × Value × Methods) := do
  let globals ← Session.globals o
  let host ← (o.host.getD (.object [])).build
  return (globals, host, ← Methods.fresh)

/-- Declares names of the root scope one after the other. -/
def declareAll (kind : DeclKind) : List (String × Value) → Arena.Op Unit
  | [] => return
  | (name, v) :: rest => do
    Arena.declareOwn kind Arena.root name v
    declareAll kind rest

/-- Binds the receiver, the globals and the host's value in the root scope. -/
def install (globals : Table Value) (host : Value) : Arena.Op Unit := do
  Arena.declareOwn .const Arena.root "this" .undefined
  declareAll .let_ globals.entries
  Arena.declareOwn .const Arena.root hostName host

end Session

namespace World

/-- Opens a session. Answers the host's value in it, and why it could not be opened. -/
def openSession (w : World) (o : Options) : Value × Option Cause × World :=
  let ((globals, host, methods), heap) := (Session.prepare o).run w.heap
  match Session.install globals host (Arena.new w.sessions.size) with
  | .error c _ => (host, some c, { w with heap := heap })
  | .ok () scopes =>
    let realm : Realm := {
      id := w.sessions.size, methods := methods, maxDepth := o.maxDepth, outside := o.outside }
    let session : Session := { scopes := scopes, realm := realm, parse := o.parse }
    (host, none, { w with heap := heap, sessions := w.sessions.push session })

/-- Opens several sessions with the same options. -/
def openSessions (w : World) (o : Options) : Nat → Option Cause × World
  | 0 => (none, w)
  | n + 1 =>
    match w.openSession o with
    | (_, none, w) => openSessions w o n
    | (_, some c, w) => (some c, w)

/-- Runs a computation in a session. -/
def within {α : Type} (w : World) (i : Nat) (m : Eval α) : Ending α × World :=
  match w.sessions[i]? with
  | none => (.exhausted, w)
  | some session =>
    let start : State := {
      heap := w.heap, scopes := session.scopes, realm := session.realm, memory := session.memory
      console := w.console }
    let leave (s : State) : World :=
      { heap := s.heap
        sessions :=
          w.sessions.setIfInBounds i { session with scopes := s.scopes, memory := s.memory }
        console := s.console }
    match m start with
    | .ok a s => (.done a, leave s)
    | .fault f s => (.failed f, leave s)
    | .exhausted _ => (.exhausted, w)

/-- What was printed since the console was last taken. -/
def takeConsole (w : World) : String × World :=
  (String.join (w.console.reverse.map (· ++ "\n")), { w with console := [] })

end World

namespace Eval

/-- Runs a source text in the root scope. -/
def source (fuel : Nat) (options : ParseOptions) (text : String) : Eval Value :=
  match parseProgram text options with
  | .error e => raise (.parse e)
  | .ok p => program fuel p

/-- Evaluates a text, in which a return statement may stand anywhere. -/
def evaluate (fuel : Nat) (options : ParseOptions) (text : String) : Eval Value :=
  source fuel { options with allowReturn := true } text

/-- The value of a name in the root scope. -/
def rootValue (name : String) : Eval Value := do
  match ← gets (·.scopes.read Arena.root name) with
  | .ok v => return v
  | .error c => raise c

/-- The host's value. -/
def hostValue : Eval Value :=
  gets fun s =>
    match s.scopes.read Arena.root hostName with
    | .ok v => v
    | .error _ => .undefined

/-- Builds a value on the heap. -/
def build (b : Blueprint) : Eval Value := fun s =>
  let (v, heap) := b.build s.heap
  .ok v { s with heap := heap }

/-- Calls the value of a name in the root scope. -/
def callRoot (fuel : Nat) (name : String) (receiver : Value) (args : List Value) : Eval Value := do
  let f ← rootValue name
  call (recursion fuel) f receiver args

/-- Makes an instance with the value of a name in the root scope. -/
def constructRoot (fuel : Nat) (name : String) (args : List Value) : Eval Value := do
  let f ← rootValue name
  construct (recursion fuel) f args

end Eval

/-- Runs a script with options of its own. Answers the host's value at its end, or why there is
none, and also the value that the host gave. -/
def run (fuel : Nat) (o : Options) (text : String) : Ending Value × Value × World :=
  match World.openSession {} o with
  | (host, some c, w) => (.failed { cause := c }, host, w)
  | (host, none, w) =>
    let (ending, w) := w.within 0 do
      discard (Eval.source fuel o.parse text)
      Eval.rootValue hostName
    (ending, host, w)

end Scriptlet
