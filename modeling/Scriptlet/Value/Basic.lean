import Scriptlet.Table
import Scriptlet.Tree.Basic
import Scriptlet.Value.Method

/-!
Values and the heap.

Primitive values stand for themselves. Arrays, objects and functions live on the heap; a value
refers to them, so two values are the same container exactly when they hold the same reference.
Functions of the host name values only by where they have seen them, so they cannot make up
references.
-/

namespace Scriptlet

structure ArrayRef where
  index : Nat
  deriving DecidableEq, Repr

structure ObjectRef where
  index : Nat
  deriving DecidableEq, Repr

structure FunctionRef where
  index : Nat
  deriving DecidableEq, Repr

/-- A record of an arena of scopes. -/
structure ScopeId where
  index : Nat
  deriving DecidableEq, Repr, Inhabited

/-- A counted reference to the record of a scope, which refers to the handle of the scope above in
turn. An arena numbers the handles that it makes, so that no two of them are the same. -/
inductive Handle where
  | top (realm number : Nat) (scope : ScopeId)
  | under (number : Nat) (scope : ScopeId) (parent : Handle)
  /-- One that a host has written down: that of whichever scope has the slot. -/
  | slot (scope : ScopeId)
  deriving DecidableEq, Repr

namespace Handle

def scope : Handle → ScopeId
  | top _ _ scope | under _ scope _ | slot scope => scope

def parent? : Handle → Option Handle
  | under _ _ parent => some parent
  | top _ _ _ | slot _ => none

/-- The realm of the arena that made a handle. -/
def realm? : Handle → Option Nat
  | top realm _ _ => some realm
  | under _ _ parent => parent.realm?
  | slot _ => none

def number : Handle → Nat
  | top _ number _ | under number _ _ => number
  | slot _ => 0

/-- A handle and those above it. -/
def chain : Handle → List Handle
  | under number scope parent => under number scope parent :: parent.chain
  | other => [other]

end Handle

inductive Value where
  | undefined
  | null
  | boolean (value : Bool)
  | number (value : Float)
  | string (value : String)
  | array (ref : ArrayRef)
  | object (ref : ObjectRef)
  | function (ref : FunctionRef)
  deriving Repr, Inhabited

/-- A plain object: its own properties, and the object it inherits from. -/
structure Object where
  props : Table Value := {}
  prototype : Option ObjectRef := none
  deriving Repr, Inhabited

/-! ### Functions of the host -/

/-- A value that a host function can name: data, or one of the values that it has seen, in their
order. -/
inductive HostValue where
  | undefined
  | null
  | boolean (value : Bool)
  | number (value : Float)
  | string (value : String)
  | seen (place : Nat)

def HostValue.among (values : List Value) : HostValue → Value
  | .undefined => .undefined
  | .null => .null
  | .boolean b => .boolean b
  | .number x => .number x
  | .string s => .string s
  | .seen place => values.getD place .undefined

/-- What a host function can ask for. -/
inductive HostStep where
  | get (v : HostValue) (key : String)
  | set (v : HostValue) (key : String) (value : HostValue)
  | call (callee receiver : HostValue) (args : List HostValue)

/-- What a host function does from some point on. What it has asked for adds to what it has seen:
the answer, or the value that was thrown if the fault is one that it handles. -/
inductive HostCourse where
  | answer (v : HostValue)
  /-- Answers a fresh array. -/
  | gather (elements : List HostValue)
  | throw_ (v : HostValue)
  /-- A fault is told by the value that was thrown, if it was thrown by a script. -/
  | ask (step : HostStep) (next : Value → HostCourse) (handles : Option Value → Bool)
      (handler : Option Value → HostCourse)

/-- A function that a host lends to scripts. It starts out from its receiver and its arguments. -/
structure HostFunction where
  arity : Nat
  course : Value → List Value → HostCourse

/-- Asks for something, and passes all faults on. -/
def HostCourse.asks (step : HostStep) (next : Value → HostCourse) : HostCourse :=
  .ask step next (fun _ => false) fun _ => .answer .undefined

namespace HostFunction

/-- Does nothing. -/
def inert : HostFunction where
  arity := 0
  course _ _ := .answer .undefined

/-- Answers its receiver and its arguments. -/
def echo : HostFunction where
  arity := 1
  course _ args := .gather ((List.range (args.length + 1)).map .seen)

/-- Calls the first argument on each of the values at some places. -/
def callEach (then_ : HostCourse) : List Nat → HostCourse
  | [] => then_
  | place :: rest => .asks (.call (.seen 1) (.seen 0) [.seen place]) fun _ => callEach then_ rest

/-- Calls its first argument on each of the others, and answers what the calls have answered. -/
def invokeEach : HostFunction where
  arity := 1
  course _ args :=
    let places := List.range (args.length - 1)
    callEach (.gather (places.map fun i => .seen (args.length + 1 + i))) (places.map (2 + ·))

end HostFunction

/-! ### The heap -/

/-- A function that is not written in the language. -/
inductive Native where
  | array (method : ArrayMethod)
  | text (method : TextMethod)
  | number (method : NumberMethod)
  | function (method : FunctionMethod)
  | object (method : ObjectMethod)
  | global (f : GlobalFunction)
  /-- Makes error objects that inherit from `prototype`. -/
  | error (prototype : ObjectRef)
  /-- Calls `target` on a fixed receiver, with `leading` before the arguments. -/
  | bound (target : FunctionRef) (receiver : Value) (leading : List Value)
  | host (f : HostFunction)

/-- What happens when a function is called. -/
inductive Callable where
  /-- A script function with the scope that it was made in and the realm of that scope. -/
  | closure (fn : Function) (scope : Handle) (realm : Nat)
  | native (arity : Nat) (op : Native)

structure FunctionObject where
  name : String
  callable : Callable
  props : Table Value := {}

structure Heap where
  arrays : Array (Array Value) := #[]
  objects : Array Object := #[]
  functions : Array FunctionObject := #[]

namespace FunctionObject

def isArrow (f : FunctionObject) : Bool :=
  match f.callable with
  | .closure fn _ _ => fn.isArrow
  | .native _ _ => false

def isClosure (f : FunctionObject) : Bool :=
  match f.callable with
  | .closure _ _ _ => true
  | .native _ _ => false

def arity (f : FunctionObject) : Nat :=
  match f.callable with
  | .closure fn _ _ => fn.arity
  | .native arity _ => arity

/-- The name in messages. -/
def label (f : FunctionObject) : String :=
  if f.name.isEmpty then "(anonymous)" else f.name

/-- A property of the function's own, or one that every function has. -/
def get? (f : FunctionObject) (key : String) : Option Value :=
  match f.props.get? key with
  | some v => some v
  | none =>
    if key = "name" then some (.string f.name)
    else if key = "length" then some (.number (Float.ofNat f.arity))
    else none

end FunctionObject

namespace Heap

/-- The elements of an array. -/
def elements (h : Heap) (r : ArrayRef) : Array Value :=
  h.arrays[r.index]?.getD #[]

def object (h : Heap) (r : ObjectRef) : Object :=
  h.objects[r.index]?.getD {}

def function? (h : Heap) (r : FunctionRef) : Option FunctionObject :=
  h.functions[r.index]?

def newArray (h : Heap) (elements : Array Value) : ArrayRef × Heap :=
  (⟨h.arrays.size⟩, { h with arrays := h.arrays.push elements })

def newObject (h : Heap) (o : Object) : ObjectRef × Heap :=
  (⟨h.objects.size⟩, { h with objects := h.objects.push o })

def newFunction (h : Heap) (f : FunctionObject) : FunctionRef × Heap :=
  (⟨h.functions.size⟩, { h with functions := h.functions.push f })

def modifyArray (h : Heap) (r : ArrayRef) (f : Array Value → Array Value) : Heap :=
  { h with arrays := h.arrays.modify r.index f }

def modifyObject (h : Heap) (r : ObjectRef) (f : Object → Object) : Heap :=
  { h with objects := h.objects.modify r.index f }

def modifyFunction (h : Heap) (r : FunctionRef) (f : FunctionObject → FunctionObject) : Heap :=
  { h with functions := h.functions.modify r.index f }

end Heap

namespace Value

/-- The longest array that can be made. -/
def maxArrayLength : Nat := Nat.pow 2 24

/-- The longest text, in bytes, that can be made. -/
def maxTextLength : Nat := Nat.pow 2 28

def typeOf : Value → String
  | .undefined => "undefined"
  | .null | .array _ | .object _ => "object"
  | .boolean _ => "boolean"
  | .number _ => "number"
  | .string _ => "string"
  | .function _ => "function"

def isNullish : Value → Bool
  | .undefined | .null => true
  | _ => false

def isContainer : Value → Bool
  | .array _ | .object _ | .function _ => true
  | _ => false

def isFunction : Value → Bool
  | .function _ => true
  | _ => false

def isUndefined : Value → Bool
  | .undefined => true
  | _ => false

def truthy : Value → Bool
  | .undefined | .null => false
  | .boolean b => b
  | .number x => x != 0.0 && !x.isNaN
  | .string s => !s.isEmpty
  | .array _ | .object _ | .function _ => true

/-- Equality without conversion; containers are equal when they are the same. -/
def strictEquals : Value → Value → Bool
  | .undefined, .undefined | .null, .null => true
  | .boolean a, .boolean b => a == b
  | .number a, .number b => a == b
  | .string a, .string b => a == b
  | .array a, .array b => a == b
  | .object a, .object b => a == b
  | .function a, .function b => a == b
  | _, _ => false

/-- Strict equality in which NaN equals itself. -/
def sameValue : Value → Value → Bool
  | .number a, .number b => a == b || (a.isNaN && b.isNaN)
  | a, b => strictEquals a b

end Value

end Scriptlet
