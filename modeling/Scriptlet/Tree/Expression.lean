import Scriptlet.Tree.Escape
import Scriptlet.Tree.Piece
import Scriptlet.Tree.Precedence
import Scriptlet.Tree.Target

/-!
Building literals and expressions.
-/

namespace Scriptlet.Tree

open Grammar (Rule Keyword)

/-! ### Literals -/

/-- The value of hexadecimal digits, gathered digit by digit. -/
def hexNumber (span : Span) (text : String) : Build Float :=
  match (text.toList.drop 2).foldlM
      (fun acc c => (Number.digitIn? 16 c).map fun d => acc * 16.0 + Float.ofNat d) 0.0 with
  | some x => .ok x
  | none => .error ⟨.invalidNumber text, span⟩

def decimalNumber (span : Span) (text : String) : Build Float :=
  match Number.readDecimal? text.toList with
  | some x => .ok x
  | none => .error ⟨.invalidNumber text, span⟩

def number (span : Span) : List Part → Build Piece
  | [p] => do
    match ← p.piece with
    | .token text =>
      let x ← if p.rule = .hexNumber then hexNumber span text else decimalNumber span text
      return .number x
    | _ => unexpected span "a number"
  | _ => unexpected span "a number"

def string (span : Span) : List Part → Build Piece
  | [p] => do
    match ← p.piece with
    | .token raw => return .string (← unescape raw p.span.start)
    | _ => unexpected span "a string"
  | _ => unexpected span "a string"

/-- The texts and expressions of a template; `current` is the text since the last expression. -/
def templateParts : List Part → String → Build (List String × List Expr)
  | [], current => .ok ([current], [])
  | p :: rest, current => do
    match ← p.piece with
    | .token raw =>
      let text ← unescape raw p.span.start
      templateParts rest (current ++ text)
    | _ =>
      let e ← p.expr
      let (quasis, es) ← templateParts rest ""
      return (current :: quasis, e :: es)

def template (span : Span) (parts : List Part) : Build Piece := do
  let (quasis, es) ← templateParts parts ""
  return .expr (.template span quasis es)

def boolean (span : Span) (parts : List Part) : Piece :=
  .expr (.boolean span (parts.any (·.rule == .keyword .true_)))

/-! ### Operators -/

def expression (span : Span) (parts : List Part) : Build Piece := do
  match ← each Part.expr parts with
  | [e] => return .expr e
  | es => return .expr (.sequence span es)

/-- Only a plain assignment destructures. The target is checked before the value is built. -/
def assignment (span : Span) : List Part → Build Piece
  | [p] => return .expr (← p.expr)
  | [left, operator, value] => do
    let left ← left.expr
    match ← operator.piece with
    | .assignOp op =>
      let target ← if op = .plain then toPattern left else simpleTarget left
      let value ← value.expr
      return .expr (.assign span op target value)
    | _ => unexpected operator.span "an assignment operator"
  | _ => unexpected span "an expression"

def assignOperator (span : Span) : List Part → Build Piece
  | [⟨.assignOp op, _, _⟩] => return .assignOp op
  | _ => unexpected span "an assignment operator"

def conditional (span : Span) : List Part → Build Piece
  | [p] => return .expr (← p.expr)
  | [test, yes, no] => do
    let test ← test.expr
    let yes ← yes.expr
    let no ← no.expr
    return .expr (.conditional span test yes no)
  | _ => unexpected span "an expression"

/-- The operators and operands after the first operand. -/
def chain : List Part → Build (List (InfixOp × Expr))
  | op :: operand :: rest => do
    let op ← op.infixOp
    let e ← operand.expr
    let more ← chain rest
    return (op, e) :: more
  | _ => .ok []

def binary (span : Span) : List Part → Build Piece
  | first :: rest => do
    let first ← first.expr
    let rest ← chain rest
    return .expr (group first rest)
  | [] => unexpected span "an expression"

def leading (span : Span) : List Part → Build Piece
  | [⟨.updateOp op, _, _⟩] => return .leading (.update op)
  | [⟨.unaryOp op, _, _⟩] => return .leading (.unary op)
  | [⟨.keyword .typeof_, _, _⟩] => return .leading (.unary .typeOf)
  | [⟨.keyword .void_, _, _⟩] => return .leading (.unary .void)
  | [⟨.keyword .delete_, _, _⟩] => return .leading (.unary .delete)
  | _ => unexpected span "a unary operator"

/-- Whether an expression can be read and written in one. -/
def checkUpdatable (e : Expr) : Build Unit :=
  match e with
  | .identifier _ _ | .member _ _ _ => .ok ()
  | _ => .error ⟨.invalidTarget, e.span⟩

/-- An operator put before an operand. -/
def applyLeading (start : Nat) (op : Leading) (e : Expr) : Build Expr :=
  let span : Span := ⟨start, e.span.stop⟩
  match op with
  | .unary op => .ok (.unary span op e)
  | .update op => (checkUpdatable e).map fun _ => .update span op true e

/-- The operators before an operand; the nearest one binds first. -/
def unaryChain : List Part → Build Expr
  | [] => unexpected ⟨0, 0⟩ "an expression"
  | [operand] => operand.expr
  | operator :: rest => do
    let e ← unaryChain rest
    match ← operator.piece with
    | .leading op => applyLeading operator.span.start op e
    | _ => unexpected operator.span "a unary operator"

def postfixOperator (span : Span) : List Part → Build Piece
  | [⟨.updateOp op, _, _⟩] => return .update op
  | _ => unexpected span "a postfix operator"

def update (span : Span) : List Part → Build Piece
  | [p] => return .expr (← p.expr)
  | [argument, operator] => do
    let e ← argument.expr
    match ← operator.piece with
    | .update op =>
      checkUpdatable e
      return .expr (.update span op false e)
    | _ => unexpected operator.span "a postfix operator"
  | _ => unexpected span "an expression"

/-! ### Members and calls -/

def applySuffix (e : Expr) (stop : Nat) (s : Suffix) : Expr :=
  let span : Span := ⟨e.span.start, stop⟩
  match s with
  | .static name => .member span e (.static name)
  | .computed key => .member span e (.computed key)
  | .call arguments => .call span e arguments

def applySuffixes (e : Expr) : List Part → Build Expr
  | [] => .ok e
  | p :: rest => do
    match ← p.piece with
    | .suffix s => applySuffixes (applySuffix e p.span.stop s) rest
    | _ => unexpected p.span "a member or an argument list"

def leftHandSide (span : Span) : List Part → Build Piece
  | base :: suffixes => do
    let e ← base.expr
    return .expr (← applySuffixes e suffixes)
  | [] => unexpected span "an expression"

/-- The callee and the arguments of a construction. -/
def constructed (callee : Expr) (arguments : List Item) : List Part → Build (Expr × List Item)
  | [] => .ok (callee, arguments)
  | p :: rest => do
    match ← p.piece with
    | .suffix (.call arguments) => constructed callee arguments rest
    | .suffix s => constructed (applySuffix callee p.span.stop s) arguments rest
    | _ => unexpected p.span "a member or an argument list"

def newExpression (span : Span) : List Part → Build Piece
  | _ :: base :: suffixes => do
    let e ← base.expr
    let (callee, arguments) ← constructed e [] suffixes
    return .expr (.new span callee arguments)
  | _ => unexpected span "an expression"

def staticMember (span : Span) : List Part → Build Piece
  | [p] => return .suffix (.static (← p.name))
  | _ => unexpected span "a property name"

def computedMember (span : Span) : List Part → Build Piece
  | [p] => return .suffix (.computed (← p.expr))
  | _ => unexpected span "an expression"

/-- An argument or an element, possibly spread. -/
def item (p : Part) : Build Item := do
  match ← p.piece with
  | .spread e => return .spread e
  | _ => return .one (← p.expr)

def arguments (parts : List Part) : Build Piece :=
  return .suffix (.call (← each item parts))

def spread (span : Span) : List Part → Build Piece
  | [p] => return .spread (← p.expr)
  | _ => unexpected span "an expression"

/-- The one expression inside. -/
def wrapped (span : Span) : List Part → Build Piece
  | [p] => return .expr (← p.expr)
  | _ => unexpected span "an expression"

/-! ### Collections -/

def arraySlot (span : Span) : List Part → Build Piece
  | [] => return .slot .hole
  | [p] => return .slot (← item p)
  | _ => unexpected span "an element"

def slotItem (p : Part) : Build Item := do
  match ← p.piece with
  | .slot i => return i
  | _ => unexpected p.span "an element"

/-- A comma at the end adds no hole. -/
def dropLastHole (items : List Item) : List Item :=
  match items.getLast? with
  | some .hole => items.dropLast
  | _ => items

def arrayLiteral (span : Span) (parts : List Part) : Build Piece := do
  let items ← each slotItem parts
  return .expr (.array span (dropLastHole items))

def objectMember (p : Part) : Build Member := do
  match ← p.piece with
  | .member m => return m
  | .spread e => return .spread e
  | _ => unexpected p.span "an object member"

def objectLiteral (span : Span) (parts : List Part) : Build Piece :=
  return .expr (.object span (← each objectMember parts))

def propertyAssignment (span : Span) : List Part → Build Piece
  | [key, value] => do
    let key ← key.key
    let value ← value.expr
    return .member (.property key value)
  | _ => unexpected span "an object member"

def method (span : Span) : List Part → Build Piece
  | [key, params, body] => do
    let key ← key.key
    let params ← params.parameters
    let body ← body.block
    let fn : Function := ⟨.expression, none, params, .block body, span⟩
    return .member (.property key (.function span fn))
  | _ => unexpected span "an object member"

def shorthand (span : Span) : List Part → Build Piece
  | [p] => do
    let name ← p.name
    return .member (.property (.static name.text) (.identifier span name))
  | _ => unexpected span "an object member"

def propertyKey (span : Span) : List Part → Build Piece
  | [p] => do
    match ← p.piece with
    | .expr e => return .key (.computed e)
    | .string s => return .key (.static s)
    | .number x => return .key (.number x)
    | .token text => return .key (.static text)
    | _ => unexpected span "a property name"
  | _ => unexpected span "a property name"

end Scriptlet.Tree
