import Scriptlet.Eval.Operator
import Scriptlet.Eval.Pattern

/-!
Expressions.
-/

namespace Scriptlet.Eval

/-- A place that can be read and written. -/
inductive Reference where
  | binding (name : Name)
  | property (object : Value) (key : String)

def readName (name : String) (env : ScopeId) : Eval Value := do
  match ← gets (·.scopes.lookup? env name) with
  | some (_, b) => return b.value
  | none => if name = "undefined" then return .undefined else raise (.unbound name)

/-- The value of a name, or undefined. -/
def peekName (name : String) (env : ScopeId) : Eval Value :=
  gets fun s => ((s.scopes.lookup? env name).map (·.2.value)).getD .undefined

def Reference.read (ref : Reference) (env : ScopeId) : Eval Value :=
  match ref with
  | .binding name => located name.span (readName name.text env)
  | .property object key => getProperty object key

def Reference.write (ref : Reference) (v : Value) (env : ScopeId) : Eval Unit :=
  match ref with
  | .binding name => located name.span (onScopes (Arena.write env name.text v))
  | .property object key => setProperty object key v

def memberReference (r : Recursion) (object : Expr) (key : MemberKey) (env : ScopeId) :
    Eval Reference := do
  let o ← r.expr object env
  return .property o (← memberKey r key env)

/-- The place that an expression stands for. -/
def expressionReference (r : Recursion) (e : Expr) (env : ScopeId) : Eval Reference :=
  match e with
  | .identifier _ name => return .binding name
  | .member _ object key => memberReference r object key env
  | other => unsupported other.label other.span

/-- The place that a pattern stands for. -/
def patternReference (r : Recursion) (p : Pattern) (env : ScopeId) : Eval Reference :=
  match p with
  | .identifier _ name => return .binding name
  | .member _ object key => memberReference r object key env
  | other => unsupported other.label other.span

/-- How a call is named in messages. -/
def calleeLabel : Expr → String
  | .identifier _ name => name.text
  | .this _ => "this"
  | .member _ object (.static name) => calleeLabel object ++ "." ++ name.text
  | .member _ object (.computed _) => calleeLabel object ++ "[...]"
  | .call _ callee _ => calleeLabel callee ++ "(...)"
  | other => other.label

/-- The values of array elements or arguments, after those in `values`. -/
def items (r : Recursion) (env : ScopeId) (values : Array Value) : List Item → Eval (Array Value)
  | [] => return values
  | .one e :: rest => do
    let v ← r.expr e env
    items r env (values.push v) rest
  | .spread e :: rest => do
    let v ← r.expr e env
    let vs ← located e.span (iterate v)
    items r env (values ++ vs) rest
  | .hole :: rest => items r env (values.push .undefined) rest

/-- The properties of an object literal, after those in `props`. -/
def members (r : Recursion) (env : ScopeId) (props : Table Value) :
    List Member → Eval (Table Value)
  | [] => return props
  | .property key value :: rest => do
    let k ← propertyName r key env
    let v ← named r value env (some k)
    members r env (props.insert k v) rest
  | .spread e :: rest => do
    let source ← r.expr e env
    let entries ← gets (·.heap.ownEntries source)
    members r env (entries.foldl (fun t e => t.insert e.1 e.2) props) rest

/-- The text of a template, after `text`. Every part but the last is followed by an expression. -/
def template (r : Recursion) (env : ScopeId) (text : String) :
    List String → List Expr → Eval Value
  | [], _ => return .string text
  | quasi :: quasis, [] => template r env (text ++ quasi) quasis []
  | quasi :: quasis, e :: es => do
    let v ← r.expr e env
    let part ← toText r v
    let before := text ++ quasi
    if before.utf8ByteSize + part.utf8ByteSize > Value.maxTextLength then rangeFault .textLength
    else template r env (before ++ part) quasis es

/-- The value of the last expression. -/
def lastOf (r : Recursion) (env : ScopeId) (last : Value) : List Expr → Eval Value
  | [] => return last
  | e :: rest => do
    let v ← r.expr e env
    lastOf r env v rest

def unaryExpression (r : Recursion) (op : UnaryOp) (argument : Expr) (env : ScopeId) :
    Eval Value := do
  match op, argument with
  | .typeOf, .identifier _ name => return .string (← peekName name.text env).typeOf
  | .delete, .member _ object key =>
    let o ← r.expr object env
    let k ← memberKey r key env
    return .boolean (← deleteProperty o k)
  | .delete, .identifier _ _ => return .boolean false
  | _, _ => unary r op (← r.expr argument env)

def updateExpression (r : Recursion) (op : UpdateOp) (before : Bool) (argument : Expr)
    (env : ScopeId) : Eval Value := do
  let ref ← expressionReference r argument env
  let old ← toNumber r (← ref.read env)
  let new := match op with
    | .increment => old + 1.0
    | .decrement => old - 1.0
  ref.write (.number new) env
  return .number (if before then new else old)

/-- An assignment without an operator. -/
def plainAssignment (r : Recursion) (target : Pattern) (value : Expr) (env : ScopeId) :
    Eval Value := do
  match target with
  | .identifier _ _ | .member _ _ _ =>
    let ref ← patternReference r target env
    let v ← named r value env (givenName target)
    ref.write v env
    return v
  | .array _ _ | .object _ _ _ =>
    let v ← r.expr value env
    r.bind .assign target v env
    return v
  | other => unsupported other.label other.span

def assignment (r : Recursion) (op : AssignOp) (target : Pattern) (value : Expr) (env : ScopeId) :
    Eval Value := do
  match op with
  | .plain => plainAssignment r target value env
  | .logical op =>
    let ref ← patternReference r target env
    let current ← ref.read env
    if shortCircuits op current then return current
    else
      let v ← named r value env (givenName target)
      ref.write v env
      return v
  | .compound op =>
    let ref ← patternReference r target env
    let current ← ref.read env
    let right ← r.expr value env
    let v ← arith r op current right
    ref.write v env
    return v

/-- What a call calls, and its receiver. -/
def calleeAndReceiver (r : Recursion) (callee : Expr) (env : ScopeId) : Eval (Value × Value) := do
  match callee with
  | .member span object key =>
    let o ← r.expr object env
    let k ← memberKey r key env
    let f ← located span (getProperty o k)
    return (f, o)
  | _ => return (← r.expr callee env, .undefined)

def callExpression (r : Recursion) (callee : Expr) (arguments : List Item) (env : ScopeId) :
    Eval Value := do
  let (f, receiver) ← calleeAndReceiver r callee env
  let args ← items r env #[] arguments
  if f.isFunction then r.call f receiver args.toList
  else typeFault (.notFunction (calleeLabel callee))

def newExpression (r : Recursion) (callee : Expr) (arguments : List Item) (env : ScopeId) :
    Eval Value := do
  let f ← r.expr callee env
  let args ← items r env #[] arguments
  if f.isFunction then construct r f args.toList
  else typeFault (.notConstructor (calleeLabel callee))

/-- The value of an expression, without a place for its faults. -/
def expressionForm (r : Recursion) (e : Expr) (env : ScopeId) : Eval Value := do
  match e with
  | .number _ x => return .number x
  | .string _ s => return .string s
  | .boolean _ b => return .boolean b
  | .null _ => return .null
  | .template _ quasis parts => template r env "" quasis parts
  | .identifier _ name => readName name.text env
  | .this _ => peekName "this" env
  | .array _ elements => newArray (← items r env #[] elements)
  | .object _ ms =>
    let o ← newObject { props := ← members r env {} ms }
    return .object o
  | .function _ fn => functionExpression fn env
  | .unary _ op argument => unaryExpression r op argument env
  | .update _ op before argument => updateExpression r op before argument env
  | .binary _ op left right =>
    let a ← r.expr left env
    let b ← r.expr right env
    binary r op a b
  | .logical _ op left right =>
    let a ← r.expr left env
    if shortCircuits op a then return a else r.expr right env
  | .assign _ op target value => assignment r op target value env
  | .conditional _ test yes no =>
    let t ← r.expr test env
    if t.truthy then r.expr yes env else r.expr no env
  | .call _ callee arguments => callExpression r callee arguments env
  | .new _ callee arguments => newExpression r callee arguments env
  | .member _ object key =>
    let o ← r.expr object env
    let k ← memberKey r key env
    getProperty o k
  | .sequence _ es => lastOf r env .undefined es

/-- The value of an expression. -/
def expression (r : Recursion) (e : Expr) (env : ScopeId) : Eval Value :=
  located e.span (expressionForm r e env)

end Scriptlet.Eval
