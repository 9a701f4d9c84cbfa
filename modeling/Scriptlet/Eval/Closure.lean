import Scriptlet.Eval.Convert

/-!
Making, calling and constructing with functions.
-/

namespace Scriptlet.Eval

/-- A function over a scope; `name` is for a function that has none of its own. -/
def closure (fn : Function) (env : ScopeId) (name : Option String) : Eval Value := do
  let own := fn.name.map (·.text)
  let handle ← capture env
  let realm ← gets (·.realm.id)
  newFunction { name := (own.or name).getD "", callable := .closure fn handle realm }

/-- The value of a function expression. One with a name can call itself by it. -/
def functionExpression (fn : Function) (env : ScopeId) : Eval Value :=
  match fn.kind, fn.name with
  | .expression, some name =>
    inScope .block env fun scope => do
      let f ← closure fn scope none
      onScopes (Arena.declareOwn .const scope name.text f)
      return f
  | _, _ => closure fn env none

/-- The value of an expression; a function without a name gets the given one. -/
def named (r : Recursion) (e : Expr) (env : ScopeId) (name : Option String) : Eval Value :=
  match e with
  | .function _ fn => if fn.name.isNone then closure fn env name else r.expr e env
  | _ => r.expr e env

/-- Declares the functions among statements, so that all of them can be called from the start. -/
def hoistFunctions (env : ScopeId) : List Stmt → Eval Unit
  | [] => return
  | .function span fn :: rest => do
    match fn.name with
    | some name =>
      let f ← closure fn env none
      located span (onScopes (Arena.declareFunction env name.text f))
    | none => pure ()
    hoistFunctions env rest
  | _ :: rest => hoistFunctions env rest

/-- Whether the value of a statement can be the value of the statements it is among. -/
def yieldsValue : Stmt → Bool
  | .declaration _ _ | .function _ _ | .empty _ => false
  | _ => true

/-- Runs statements one after the other; `last` is the value so far. -/
def sequence (r : Recursion) (env : ScopeId) (last : Value) : List Stmt → Eval Completion
  | [] => return .normal last
  | s :: rest => do
    match ← r.stmt s env with
    | .normal v => sequence r env (if yieldsValue s then v else last) rest
    | other => return other

/-- Runs the statements of a scope. -/
def statements (r : Recursion) (body : List Stmt) (env : ScopeId) : Eval Completion := do
  hoistFunctions env body
  sequence r env .undefined body

/-- Binds parameters from left to right; a rest parameter takes all that is left. -/
def bindParameters (r : Recursion) (env : ScopeId) : List Pattern → List Value → Eval Unit
  | [], _ => return
  | .rest _ target :: params, args => do
    r.bind (.declare .var) target (← newArray args.toArray) env
    bindParameters r env params []
  | param :: params, args => do
    r.bind (.declare .var) param (args.headD .undefined) env
    bindParameters r env params args.tail

/-- Runs the body of a function in its scope. -/
def functionBody (r : Recursion) (fn : Function) (env : ScopeId) : Eval Value := do
  match fn.body with
  | .expression e => r.expr e env
  | .block body =>
    match ← statements r body.body env with
    | .return_ v => return v
    | _ => return .undefined

/-- Runs a function in its scope. Functions that are no arrows have a receiver and the list of their
arguments. -/
def invoke (r : Recursion) (fn : Function) (receiver : Value) (args : List Value) (env : ScopeId) :
    Eval Value := do
  if fn.isArrow then
    bindParameters r env fn.params args
    r.body fn env
  else
    let all ← newArray args.toArray
    onScopes (Arena.declareOwn .const env "this" receiver)
    bindParameters r env fn.params args
    discard (onScopes (Arena.declareVar env "arguments" all))
    r.body fn env

/-- Calls a script function. Those of other realms are refused, and so are too many nested calls.
Nothing calls a function that was lost. -/
def callClosure (r : Recursion) (ref : FunctionRef) (label : String) (fn : Function)
    (scope : ScopeId)
    (realm : Nat) (receiver : Value) (args : List Value) : Eval Value := do
  if realm != (← gets (·.realm.id)) then
    typeFault (.foreignFunction label)
  else if (← gets fun s => decide (s.realm.maxDepth ≤ s.depth)) then
    rangeFault .callDepth
  else if (← gets fun s => decide (ref ∈ s.memory.lost)) then
    exhausted
  else
    modify fun s => { s with depth := s.depth + 1 }
    after (inScope .function scope (invoke r fn receiver args)) fun s =>
      { s with depth := s.depth - 1 }

/-- Makes an instance with a function; a container that the function returns takes its place. -/
def construct (r : Recursion) (callee : Value) (args : List Value) : Eval Value := do
  let refuse : Eval Value := do typeFault (.notConstructor (← gets (·.heap.inspect callee)))
  match callee with
  | .function f =>
    if (← gets (·.heap.function? f)).any (·.isArrow) then refuse
    else
      let parent := match ← functionPrototype f with
        | .object p => some p
        | _ => none
      let o ← newObject { prototype := parent }
      let result ← r.call callee (.object o) args
      return if result.isContainer then result else .object o
  | _ => refuse

end Scriptlet.Eval
