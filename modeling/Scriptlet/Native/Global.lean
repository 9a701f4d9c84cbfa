import Scriptlet.Json.Reader
import Scriptlet.Json.Writer
import Scriptlet.Native.Argument
import Scriptlet.Text.Search

/-!
Functions of the standard globals, and those that a host lends to scripts.
-/

namespace Scriptlet.Native

open Eval

/-! ### JSON -/

/-- The unit of indentation that an argument asks for. -/
def indentOf : Value → String
  | .number width => if width ≥ 1.0 then Text.replicate " " (Number.toCount 10 width) else ""
  | .string s => String.ofList (s.toList.take 10)
  | _ => ""

def stringify (args : List Value) : Eval Value := do
  match ← gets fun s => s.heap.json? (argument args 0) with
  | .error .circular => typeFault .circularJson
  | .ok none => return .undefined
  | .ok (some j) => return .string (j.render (indentOf (argument args 2)))

def parseJson (r : Recursion) (args : List Value) : Eval Value := do
  let text ← toText r (argument args 0)
  match Json.parse text with
  | .ok j => fromJson j
  | .error stop =>
    let e ← makeError "SyntaxError" ("Unexpected token in JSON: " ++ stop.message text)
    raise (.thrown e)

/-! ### Numbers -/

def mathFunction (f : MathFunction) (x : Float) : Float :=
  match f with
  | .abs => x.abs
  | .floor => x.floor
  | .ceil => x.ceil
  | .round => (x + 0.5).floor
  | .sqrt => x.sqrt
  | .trunc => Number.trunc x
  | .sign => Number.sign x

/-- The choice among numbers; NaN ends it. -/
def choose (r : Recursion) (pick : Float → Float → Float) (best : Float) : List Value → Eval Value
  | [] => return .number best
  | v :: rest => do
    let x ← toNumber r v
    if x.isNaN then return .number Number.nan
    else choose r pick (pick best x) rest

/-! ### Objects -/

/-- The argument of a function on objects. -/
def objectArgument (f : GlobalFunction) (args : List Value) : Eval Value :=
  match argument args 0 with
  | .undefined => typeFault (.nullishArgument f.signature.name "undefined")
  | .null => typeFault (.nullishArgument f.signature.name "null")
  | v => return v

/-- Makes an array of a key and a value for each entry, after those in `pairs`. -/
def pairs (made : Array Value) : List (String × Value) → Eval (Array Value)
  | [] => return made
  | (k, v) :: rest => do
    let pair ← newArray #[.string k, v]
    pairs (made.push pair) rest

/-- Sets properties of the target to those that a source has. -/
def assignKeys (target source : Value) : List String → Eval Unit
  | [] => return
  | key :: rest => do
    let v ← gets fun s => (s.heap.get? source key).getD .undefined
    setProperty target key v
    assignKeys target source rest

def assignAll (target : Value) : List Value → Eval Unit
  | [] => return
  | source :: rest => do
    unless source.isNullish do
      assignKeys target source (← gets (·.heap.ownKeys source))
    assignAll target rest

/-! ### Errors and the console -/

def errorText (r : Recursion) (receiver : Value) : Eval Value := do
  let name ← getProperty receiver "name"
  let message ← getProperty receiver "message"
  let n ← if name.isUndefined then pure "Error" else toText r name
  let m ← if message.isUndefined then pure "" else toText r message
  return .string (if m.isEmpty then n else if n.isEmpty then m else n ++ ": " ++ m)

/-- An error that inherits from `prototype`: the receiver if it does, and a fresh one otherwise. -/
def makeInstance (r : Recursion) (prototype : ObjectRef) (receiver : Value) (args : List Value) :
    Eval Value := do
  let fresh : Eval Value := return .object (← newObject { prototype := some prototype })
  let target ← match receiver with
    | .object o =>
      if (← gets fun s => (s.heap.object o).prototype) == some prototype then pure receiver
      else fresh
    | _ => fresh
  match argument args 0 with
  | .undefined => return target
  | message =>
    let m ← toText r message
    setProperty target "message" (.string m)
    return target

/-- What the console shows for each value, after `shown`, which is reversed. -/
def consoleParts (r : Recursion) (shown : List String) : List Value → Eval (List String)
  | [] => return shown.reverse
  | v :: rest => do
    let text ← match v with
      | .string s => pure s
      | other =>
        if (← gets (·.heap.errorParts? other)).isSome then toText r other
        else gets (·.heap.inspect other)
    consoleParts r (text :: shown) rest

def log (r : Recursion) (args : List Value) : Eval Value := do
  let line := String.intercalate " " (← consoleParts r [] args)
  modify fun s => { s with console := line :: s.console }
  return .undefined

def globalFunction (r : Recursion) (f : GlobalFunction) (receiver : Value) (args : List Value) :
    Eval Value := do
  match f with
  | .stringify => stringify args
  | .parseJson => parseJson r args
  | .math f => return .number (mathFunction f (← toNumber r (argument args 0)))
  | .max => choose r Number.maximum (-Number.infinity) args
  | .min => choose r Number.minimum Number.infinity args
  | .pow =>
    let base ← toNumber r (argument args 0)
    let exponent ← toNumber r (argument args 1)
    return .number (Number.power base exponent)
  | .keys =>
    let v ← objectArgument f args
    newArray (← gets fun s => ((s.heap.ownKeys v).map .string).toArray)
  | .values =>
    let v ← objectArgument f args
    newArray (← gets fun s => ((s.heap.ownEntries v).map (·.2)).toArray)
  | .entries =>
    let v ← objectArgument f args
    let entries ← gets (·.heap.ownEntries v)
    newArray (← pairs #[] entries)
  | .assign =>
    let target ← objectArgument f args
    assignAll target args.tail
    return target
  | .isArray =>
    match argument args 0 with
    | .array _ => return .boolean true
    | _ => return .boolean false
  | .log => log r args
  | .string =>
    match args with
    | [] => return .string ""
    | v :: _ => return .string (← toText r v)
  | .number =>
    match args with
    | [] => return .number 0.0
    | v :: _ => return .number (← toNumber r v)
  | .boolean => return .boolean (argument args 0).truthy
  | .parseInt =>
    let text ← toText r (argument args 0)
    let radix ← match args[1]? with
      | some v => gets (·.heap.number v)
      | none => pure 0.0
    return .number (Number.parseInt text radix)
  | .parseFloat => return .number (Number.parseFloat (← toText r (argument args 0)))
  | .isNaN => return .boolean (← toNumber r (argument args 0)).isNaN
  | .isFinite => return .boolean (← toNumber r (argument args 0)).isFinite
  | .errorText => errorText r receiver

/-! ### Lent by the host -/

/-- Does what a host function asks for. -/
def hostStep (r : Recursion) (seen : List Value) : HostStep → Eval Value
  | .get v key => getProperty (v.among seen) key
  | .set v key value => do
    setProperty (v.among seen) key (value.among seen)
    return .undefined
  | .call callee receiver args =>
    r.call (callee.among seen) (receiver.among seen) (args.map (·.among seen))

/-- Lets some faults be handled. -/
def handling (handles : Option Value → Bool) (m : Eval Value) :
    Eval (Except (Option Value) Value) :=
  recover (do return .ok (← m)) fun f =>
    if handles f.cause.thrown? then return .error f.cause.thrown? else fun s => .fault f s

def hostCourse (r : Recursion) (seen : List Value) : HostCourse → Eval Value
  | .answer v => return v.among seen
  | .gather elements => newArray (elements.map (·.among seen)).toArray
  | .throw_ v => raise (.thrown (v.among seen))
  | .ask step next handles handler => do
    match ← handling handles (hostStep r seen step) with
    | .ok v => hostCourse r (seen ++ [v]) (next v)
    | .error thrown => hostCourse r (seen ++ thrown.toList) (handler thrown)

def hostFunction (r : Recursion) (f : HostFunction) (receiver : Value) (args : List Value) :
    Eval Value :=
  hostCourse r (receiver :: args) (f.course receiver args)

end Scriptlet.Native
