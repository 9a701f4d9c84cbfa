import Scriptlet.Eval.Pattern

/-!
Statements.

Loops take up `break` and `continue`, a switch takes up `break`, and `return` goes up to the call of
the function.
-/

namespace Scriptlet.Eval

def block (r : Recursion) (b : Block) (env : ScopeId) : Eval Completion :=
  inScope .block env (statements r b.body)

def declarators (r : Recursion) (kind : DeclKind) (env : ScopeId) : List Declarator → Eval Unit
  | [] => return
  | ⟨.identifier _ name, none, _⟩ :: rest => do
    located name.span (onScopes (Arena.declare kind env name.text .undefined))
    declarators r kind env rest
  | ⟨target, init, _⟩ :: rest => do
    let v ← match init with
      | some e => named r e env (givenName target)
      | none => pure .undefined
    r.bind (.declare kind) target v env
    declarators r kind env rest

def declaration (r : Recursion) (d : Declaration) (env : ScopeId) : Eval Unit :=
  declarators r d.kind env d.declarators

/-! ### Loops -/

/-- The truth of an optional test; a missing one holds. -/
def holds (r : Recursion) (test : Option Expr) (env : ScopeId) : Eval Bool :=
  match test with
  | some e => return (← r.expr e env).truthy
  | none => return true

/-- Goes on with a loop after its body, or leaves it. -/
@[always_inline, inline]
def continueWith (c : Completion) (next : Eval Completion) : Eval Completion :=
  match c with
  | .normal _ | .continue_ => next
  | .break_ => return .empty
  | .return_ v => return .return_ v

def forLoop (r : Recursion) (test update : Option Expr) (body : Stmt) (env : ScopeId) :
    Nat → Eval Completion
  | 0 => exhausted
  | fuel + 1 => do
    if ← holds r test env then
      continueWith (← r.stmt body env) do
        match update with
        | some e => discard (r.expr e env)
        | none => pure ()
        forLoop r test update body env fuel
    else return .empty

def whileLoop (r : Recursion) (test : Expr) (body : Stmt) (env : ScopeId) : Nat → Eval Completion
  | 0 => exhausted
  | fuel + 1 => do
    let t ← r.expr test env
    if t.truthy then
      continueWith (← r.stmt body env) (whileLoop r test body env fuel)
    else return .empty

def doWhileLoop (r : Recursion) (test : Expr) (body : Stmt) (env : ScopeId) : Nat → Eval Completion
  | 0 => exhausted
  | fuel + 1 => do
    continueWith (← r.stmt body env) do
      let t ← r.expr test env
      if t.truthy then doWhileLoop r test body env fuel else return .empty

/-- One round of a loop over a value, in a scope of its own. -/
def visit (r : Recursion) (mode : BindMode) (target : Pattern) (body : Stmt) (env : ScopeId)
    (item : Value) : Eval Completion :=
  inScope .block env fun scope => do
    r.bind mode target item scope
    r.stmt body scope

/-- Visits values that are known beforehand. -/
def visitAll (visit : Value → Eval Completion) : List Value → Eval Completion
  | [] => return .empty
  | item :: rest => do
    continueWith (← visit item) (visitAll visit rest)

/-- Visits the elements of an array from `index` on, those that are added on the way included. -/
def visitElements (visit : Value → Eval Completion) (ref : ArrayRef) (index : Nat) :
    Nat → Eval Completion
  | 0 => exhausted
  | fuel + 1 => do
    match ← gets fun s => (s.heap.elements ref)[index]? with
    | none => return .empty
    | some item =>
      continueWith (← visit item) (visitElements visit ref (index + 1) fuel)

def forEach (r : Recursion) (mode : EachMode) (bindMode : BindMode) (target : Pattern)
    (subject : Expr) (body : Stmt) (env : ScopeId) : Eval Completion := do
  let v ← r.expr subject env
  let round := visit r bindMode target body env
  match mode, v with
  | .elements, .array ref => visitElements round ref 0 r.fuel
  | .elements, other => visitAll round (← located subject.span (iterate other))
  | .keys, other =>
    let keys ← gets (·.heap.enumerableKeys other)
    visitAll round (keys.map .string)

/-! ### Choices and handlers -/

/-- The cases from the first one on whose test equals the subject. -/
def findCase (r : Recursion) (subject : Value) (env : ScopeId) :
    List Case → Eval (Option (List Case))
  | [] => return none
  | c :: rest => do
    match c.test with
    | none => findCase r subject env rest
    | some test =>
      let v ← r.expr test env
      if v.strictEquals subject then return some (c :: rest) else findCase r subject env rest

/-- Runs cases one after the other up to a `break`. -/
def runCases (r : Recursion) (env : ScopeId) : List Case → Eval Completion
  | [] => return .empty
  | c :: rest => do
    match ← sequence r env .undefined c.body with
    | .normal _ => runCases r env rest
    | .break_ => return .empty
    | other => return other

def hoistCases (env : ScopeId) : List Case → Eval Unit
  | [] => return
  | c :: rest => do
    hoistFunctions env c.body
    hoistCases env rest

def switch (r : Recursion) (subject : Expr) (cases : List Case) (env : ScopeId) :
    Eval Completion := do
  let v ← r.expr subject env
  inScope .block env fun scope => do
    hoistCases scope cases
    match ← findCase r v scope cases with
    | some chosen => runCases r scope chosen
    | none => runCases r scope (cases.dropWhile (·.test.isSome))

/-- Runs a handler for a fault. -/
def handle (r : Recursion) (param : Option Pattern) (body : Block) (env : ScopeId) (f : Fault) :
    Eval Completion := do
  let v ← errorValue f
  inScope .block env fun scope => do
    match param with
    | some p => r.bind (.declare .let_) p v scope
    | none => pure ()
    statements r body.body scope

/-- A block with its handler, if it has one. -/
def guarded (r : Recursion) (b : Block) (handler : Handler) (env : ScopeId) : Eval Completion :=
  match handler with
  | .nothing => block r b env
  | .catch_ _ param body =>
    recover (block r b env) fun f =>
      if f.catchable then handle r param body env f else fun s => .fault f s

/-- Runs `last` after `m` in any case. The outcome is that of `m` unless `last` fails or ends
otherwise than normally. -/
def finishing (m last : Eval Completion) : Eval Completion := fun s =>
  match m s with
  | .exhausted s => .exhausted s
  | .ok c s =>
    match last s with
    | .ok (.normal _) s => .ok c s
    | other => other
  | .fault f s =>
    match last s with
    | .ok (.normal _) s => .fault f s
    | other => other

/-- A statement, without a place for its faults. -/
def statementForm (r : Recursion) (s : Stmt) (env : ScopeId) : Eval Completion := do
  match s with
  | .expression _ e => return .normal (← r.expr e env)
  | .declaration _ d =>
    declaration r d env
    return .empty
  | .function _ _ => return .empty
  | .block _ b => block r b env
  | .empty _ => return .empty
  | .if_ _ test yes no =>
    let t ← r.expr test env
    if t.truthy then r.stmt yes env
    else
      match no with
      | some no => r.stmt no env
      | none => return .empty
  | .for_ _ init test update body =>
    inScope .block env fun scope => do
      match init with
      | .nothing => pure ()
      | .declaration d => declaration r d scope
      | .expression e => discard (r.expr e scope)
      forLoop r test update body scope r.fuel
  | .forEach _ mode declared target subject body =>
    let bindMode := match declared with
      | some kind => .declare kind
      | none => .assign
    forEach r mode bindMode target subject body env
  | .while_ _ test body => whileLoop r test body env r.fuel
  | .doWhile _ body test => doWhileLoop r test body env r.fuel
  | .break_ _ => return .break_
  | .continue_ _ => return .continue_
  | .return_ _ none => return .return_ .undefined
  | .return_ _ (some e) => return .return_ (← r.expr e env)
  | .throw_ _ e =>
    let v ← r.expr e env
    located e.span (raise (.thrown v))
  | .try_ _ b handler none => guarded r b handler env
  | .try_ _ b handler (some last) => finishing (guarded r b handler env) (block r last env)
  | .switch _ subject cases => switch r subject cases env

/-- Runs a statement. -/
def statement (r : Recursion) (s : Stmt) (env : ScopeId) : Eval Completion :=
  located s.span (statementForm r s env)

end Scriptlet.Eval
