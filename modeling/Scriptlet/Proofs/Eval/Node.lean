import Scriptlet.Eval.Recursion

/-!
The parts of a program that are run by themselves.

A program is seen as a tree of expressions, statements, patterns and functions; everything else in
it only groups such parts. A pattern comes with the way in which its names get their values.
-/

namespace Scriptlet

inductive Node where
  | expr (e : Expr)
  | stmt (s : Stmt)
  | pattern (mode : BindMode) (p : Pattern)
  | function (fn : Function)

def PropertyKey.nodes : PropertyKey → List Node
  | .static _ | .number _ => []
  | .computed e => [.expr e]

def MemberKey.nodes : MemberKey → List Node
  | .static _ => []
  | .computed e => [.expr e]

def Item.nodes : Item → List Node
  | .one e | .spread e => [.expr e]
  | .hole => []

def Member.nodes : Member → List Node
  | .property key value => key.nodes ++ [.expr value]
  | .spread e => [.expr e]

def PatternProperty.nodes (mode : BindMode) (p : PatternProperty) : List Node :=
  p.key.nodes ++ [.pattern mode p.value]

def FunctionBody.nodes : FunctionBody → List Node
  | .block b => b.body.map .stmt
  | .expression e => [.expr e]

def Declarator.nodes (kind : DeclKind) (d : Declarator) : List Node :=
  .pattern (.declare kind) d.target :: d.init.toList.map .expr

def Declaration.nodes (d : Declaration) : List Node :=
  d.declarators.flatMap (Declarator.nodes d.kind)

def ForInit.nodes : ForInit → List Node
  | .nothing => []
  | .declaration d => d.nodes
  | .expression e => [.expr e]

def Handler.nodes : Handler → List Node
  | .nothing => []
  | .catch_ _ param body =>
    param.toList.map (.pattern (.declare .let_)) ++ body.body.map .stmt

def Case.nodes (c : Case) : List Node :=
  c.test.toList.map .expr ++ c.body.map .stmt

/-- How the target of a loop over a value gets its values. -/
def eachMode (declared : Option DeclKind) : BindMode :=
  match declared with
  | some kind => .declare kind
  | none => .assign

def Expr.nodes : Expr → List Node
  | .number _ _ | .string _ _ | .boolean _ _ | .null _ | .identifier _ _ | .this _ => []
  | .template _ _ parts => parts.map .expr
  | .array _ items => items.flatMap Item.nodes
  | .object _ members => members.flatMap Member.nodes
  | .function _ fn => [.function fn]
  | .unary _ _ argument | .update _ _ _ argument => [.expr argument]
  | .binary _ _ left right | .logical _ _ left right => [.expr left, .expr right]
  | .assign _ _ target value => [.pattern .assign target, .expr value]
  | .conditional _ test yes no => [.expr test, .expr yes, .expr no]
  | .call _ callee arguments | .new _ callee arguments =>
    .expr callee :: arguments.flatMap Item.nodes
  | .member _ of key => .expr of :: key.nodes
  | .sequence _ items => items.map .expr

def Stmt.nodes : Stmt → List Node
  | .empty _ | .break_ _ | .continue_ _ => []
  | .expression _ e | .throw_ _ e => [.expr e]
  | .declaration _ d => d.nodes
  | .function _ fn => [.function fn]
  | .block _ b => b.body.map .stmt
  | .if_ _ test yes no => .expr test :: .stmt yes :: no.toList.map .stmt
  | .for_ _ init test update body =>
    init.nodes ++ test.toList.map .expr ++ update.toList.map .expr ++ [.stmt body]
  | .forEach _ _ declared target subject body =>
    [.pattern (eachMode declared) target, .expr subject, .stmt body]
  | .while_ _ test body | .doWhile _ body test => [.expr test, .stmt body]
  | .return_ _ value => value.toList.map .expr
  | .try_ _ b handler finalizer =>
    b.body.map .stmt ++ handler.nodes ++ (finalizer.toList.flatMap fun b => b.body.map .stmt)
  | .switch _ subject cases => .expr subject :: cases.flatMap Case.nodes

def Pattern.nodes (mode : BindMode) : Pattern → List Node
  | .identifier _ _ => []
  | .array _ elements => (elements.filterMap id).map (.pattern mode)
  | .object _ properties others =>
    properties.flatMap (PatternProperty.nodes mode) ++ others.toList.map (.pattern mode)
  | .withDefault _ target value => [.pattern mode target, .expr value]
  | .rest _ target => [.pattern mode target]
  | .member _ of key => .expr of :: key.nodes

def Function.nodes (fn : Function) : List Node :=
  fn.params.map (.pattern (.declare .var)) ++ fn.body.nodes

namespace Node

/-- The parts right below a part. -/
def children : Node → List Node
  | .expr e => e.nodes
  | .stmt s => s.nodes
  | .pattern mode p => p.nodes mode
  | .function fn => fn.nodes

/-- The spans that the faults of a part are placed at. -/
def spans : Node → List Span
  | .expr (.identifier span name) | .pattern _ (.identifier span name) => [span, name.span]
  | .expr e => [e.span]
  | .stmt s => [s.span]
  | .pattern _ p => [p.span]
  | .function _ => []

theorem span_mem_spans_expr (e : Expr) : e.span ∈ (Node.expr e).spans := by
  cases e with
  | _ => exact List.mem_cons_self

theorem span_mem_spans_pattern (mode : BindMode) (p : Pattern) :
    p.span ∈ (Node.pattern mode p).spans := by
  cases p with
  | _ => exact List.mem_cons_self

end Node

/-- An expression that stands for a place. -/
def Expr.isPlace : Expr → Bool
  | .identifier _ _ | .member _ _ _ => true
  | _ => false

/-- A pattern that stands for a single place. -/
def Pattern.isPlace : Pattern → Bool
  | .identifier _ _ | .member _ _ _ => true
  | _ => false

/-- A pattern that a value can be assigned to as a whole. -/
def Pattern.isTarget : Pattern → Bool
  | .identifier _ _ | .member _ _ _ | .array _ _ | .object _ _ _ => true
  | .withDefault _ _ _ | .rest _ _ => false

/-- The patterns that are let through as the target of a plain assignment. -/
def Pattern.isLetThrough : Pattern → Bool
  | .rest _ _ => false
  | _ => true

/-- Whether the evaluator has a rule for a part. -/
def Node.executable : Node → Bool
  | .expr (.update _ _ _ argument) => argument.isPlace
  | .expr (.assign _ .plain target _) => target.isTarget
  | .expr (.assign _ _ target _) => target.isPlace
  | .pattern (.declare _) (.member _ _ _) => false
  | _ => true

end Scriptlet
