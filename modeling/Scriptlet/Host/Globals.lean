import Scriptlet.Eval.Monad

/-!
The standard globals and the methods of values, as fresh functions on a heap.
-/

namespace Scriptlet

namespace Globals

def newFunction (name : String) (arity : Nat) (op : Native) : StateM Heap FunctionRef :=
  modifyGet (·.newFunction { name := name, callable := .native arity op })

def newObject (o : Object) : StateM Heap ObjectRef :=
  modifyGet (·.newObject o)

/-- A function under its name. -/
def entry (f : GlobalFunction) : StateM Heap (String × Value) := do
  let s := f.signature
  return (s.name, .function (← newFunction s.name s.arity (.global f)))

/-- An object that holds functions, after some constants. -/
def namespaceOf (constants : List (String × Value)) (fs : List GlobalFunction) :
    StateM Heap Value := do
  let functions ← fs.mapM entry
  return .object (← newObject { props := .ofList (constants ++ functions) })

def pi : Float := 3.141592653589793

def e : Float := 2.718281828459045

/-- A constructor of errors, with what they inherit from. -/
def errorConstructor (name : String) (prototype : ObjectRef) : StateM Heap (String × Value) := do
  let f ← modifyGet (·.newFunction
    { name := name
      callable := .native 1 (.error prototype)
      props := .ofList [("prototype", .object prototype)] })
  return (name, .function f)

/-- The constructors of errors. All of their errors inherit from those of the first. -/
def errors : StateM Heap (List (String × Value)) := do
  let toText ← entry .errorText
  let base ← newObject
    { props := .ofList [("name", .string "Error"), ("message", .string ""), toText] }
  let others ← ["TypeError", "ReferenceError", "SyntaxError", "RangeError"].mapM fun name => do
    let prototype ← newObject
      { props := .ofList [("name", .string name)], prototype := some base }
    errorConstructor name prototype
  return (← errorConstructor "Error" base) :: others

/-- The globals that every script has unless its host takes them away. -/
def standard : StateM Heap (Table Value) := do
  let errors ← errors
  let json ← namespaceOf [] [.stringify, .parseJson]
  let math ← namespaceOf [("PI", .number pi), ("E", .number e)]
    (MathFunction.all.map .math ++ [.max, .min, .pow])
  let object ← namespaceOf [] [.keys, .values, .entries, .assign]
  let array ← namespaceOf [] [.isArray]
  let console ← namespaceOf [] [.log]
  let functions ← [GlobalFunction.string, .number, .boolean, .parseInt, .parseFloat, .isNaN,
    .isFinite].mapM entry
  let constants : List (String × Value) :=
    [("undefined", .undefined), ("NaN", .number Number.nan), ("Infinity", .number Number.infinity)]
  let spaces : List (String × Value) :=
    [("JSON", json), ("Math", math), ("Object", object), ("Array", array), ("console", console)]
  return .ofList (constants ++ errors ++ spaces ++ functions)

end Globals

namespace Methods

def table {α : Type} (signature : α → Signature) (op : α → Native) (methods : List α) :
    StateM Heap (Table FunctionRef) := do
  let entries ← methods.mapM fun m => do
    let s := signature m
    return (s.name, ← Globals.newFunction s.name s.arity (op m))
  return .ofList entries

/-- Fresh functions for all methods. -/
def fresh : StateM Heap Methods :=
  return {
    array := ← table ArrayMethod.signature .array ArrayMethod.all
    text := ← table TextMethod.signature .text TextMethod.all
    number := ← table NumberMethod.signature .number NumberMethod.all
    function := ← table FunctionMethod.signature .function FunctionMethod.all
    object := ← table ObjectMethod.signature .object ObjectMethod.all }

end Methods

end Scriptlet
