import Scriptlet.Eval.Closure

/-!
Binding values to patterns.
-/

namespace Scriptlet.Eval

/-- Fails with a construct that cannot be run. -/
def unsupported {α : Type} (label : String) (span : Span) : Eval α :=
  located span (raise (.unsupported label))

/-- The key of a member expression. -/
def memberKey (r : Recursion) (key : MemberKey) (env : ScopeId) : Eval String :=
  match key with
  | .static name => return name.text
  | .computed e => do toKey r (← r.expr e env)

/-- The key of a property in an object literal or an object pattern. -/
def propertyName (r : Recursion) (key : PropertyKey) (env : ScopeId) : Eval String :=
  match key with
  | .static text => return text
  | .number x => return Number.text x
  | .computed e => do toKey r (← r.expr e env)

/-- The name that a function gets when it is bound to a pattern. -/
def givenName : Pattern → Option String
  | .identifier _ name => some name.text
  | _ => none

def bindName (mode : BindMode) (name : String) (v : Value) (env : ScopeId) : Eval Unit :=
  match mode with
  | .assign => onScopes (Arena.write env name v)
  | .declare .var => onScopes (Arena.initVar env name v)
  | .declare kind => onScopes (Arena.declare kind env name v)

/-- Binds the elements of an array pattern; `items` are the values from the current element on. -/
def bindElements (r : Recursion) (mode : BindMode) (env : ScopeId) :
    List (Option Pattern) → List Value → Eval Unit
  | [], _ => return
  | none :: rest, items => bindElements r mode env rest items.tail
  | some (.rest _ target) :: rest, items => do
    r.bind mode target (← newArray items.toArray) env
    bindElements r mode env rest items.tail
  | some p :: rest, items => do
    r.bind mode p (items.headD .undefined) env
    bindElements r mode env rest items.tail

/-- Binds the properties of an object pattern and answers their keys, the last one first. -/
def bindProperties (r : Recursion) (mode : BindMode) (v : Value) (env : ScopeId)
    (used : List String) : List PatternProperty → Eval (List String)
  | [] => return used
  | p :: rest => do
    let key ← propertyName r p.key env
    r.bind mode p.value (← getProperty v key) env
    bindProperties r mode v env (key :: used) rest

def bindPattern (r : Recursion) (mode : BindMode) (p : Pattern) (v : Value) (env : ScopeId) :
    Eval Unit := do
  match p with
  | .identifier _ name => located name.span (bindName mode name.text v env)
  | .member span object key =>
    match mode with
    | .assign =>
      let o ← r.expr object env
      let k ← memberKey r key env
      located span (setProperty o k v)
    | .declare _ => unsupported p.label span
  | .withDefault _ target default =>
    let v ← if v.isUndefined then named r default env (givenName target) else pure v
    r.bind mode target v env
  | .array span elements =>
    let items ← located span (iterate v)
    bindElements r mode env elements items
  | .object span properties rest =>
    if v.isNullish then
      located span do typeFault (.cannotDestructure (← gets (·.heap.text v)))
    else
      let used ← bindProperties r mode v env [] properties
      match rest with
      | none => return
      | some target =>
        let left ← gets fun s => (s.heap.ownEntries v).filter fun e => !used.contains e.1
        let o ← newObject { props := .ofList left }
        r.bind mode target (.object o) env
  | .rest _ target => r.bind mode target v env

end Scriptlet.Eval
