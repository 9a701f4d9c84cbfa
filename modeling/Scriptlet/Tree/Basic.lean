import Scriptlet.Span
import Scriptlet.Tree.Operator

/-!
The program tree. Statements, expressions and patterns carry the span of the text they came from.
-/

namespace Scriptlet

/-- A name at a place in the text. -/
structure Name where
  text : String
  span : Span
  deriving DecidableEq, Repr

/-- The three kinds of declared names. -/
inductive DeclKind where
  | var
  | let_
  | const
  deriving DecidableEq, Repr

def DeclKind.word : DeclKind → String
  | .var => "var"
  | .let_ => "let"
  | .const => "const"

inductive FunctionKind where
  | declaration
  | expression
  | arrow
  deriving DecidableEq, Repr

def FunctionKind.word : FunctionKind → String
  | .declaration => "declaration"
  | .expression => "expression"
  | .arrow => "arrow"

/-- What a loop over a value visits. -/
inductive EachMode where
  | keys
  | elements
  deriving DecidableEq, Repr

mutual

inductive Expr where
  | number (span : Span) (value : Float)
  | string (span : Span) (value : String)
  | boolean (span : Span) (value : Bool)
  | null (span : Span)
  | template (span : Span) (quasis : List String) (parts : List Expr)
  | identifier (span : Span) (name : Name)
  | this (span : Span)
  | array (span : Span) (items : List Item)
  | object (span : Span) (members : List Member)
  | function (span : Span) (fn : Function)
  | unary (span : Span) (op : UnaryOp) (argument : Expr)
  | update (span : Span) (op : UpdateOp) (before : Bool) (argument : Expr)
  | binary (span : Span) (op : BinaryOp) (left right : Expr)
  | logical (span : Span) (op : LogicalOp) (left right : Expr)
  | assign (span : Span) (op : AssignOp) (target : Pattern) (value : Expr)
  | conditional (span : Span) (test yes no : Expr)
  | call (span : Span) (callee : Expr) (arguments : List Item)
  | new (span : Span) (callee : Expr) (arguments : List Item)
  | member (span : Span) (object : Expr) (key : MemberKey)
  | sequence (span : Span) (items : List Expr)

/-- An element of an array literal or an argument; only array literals have holes. -/
inductive Item where
  | one (value : Expr)
  | spread (value : Expr)
  | hole

/-- A member of an object literal; methods and names alone are properties too. -/
inductive Member where
  | property (key : PropertyKey) (value : Expr)
  | spread (value : Expr)

inductive PropertyKey where
  | static (text : String)
  | number (value : Float)
  | computed (key : Expr)

inductive MemberKey where
  | static (name : Name)
  | computed (key : Expr)

/-- What a value is bound to. -/
inductive Pattern where
  | identifier (span : Span) (name : Name)
  | array (span : Span) (elements : List (Option Pattern))
  | object (span : Span) (properties : List PatternProperty) (rest : Option Pattern)
  | withDefault (span : Span) (target : Pattern) (value : Expr)
  | rest (span : Span) (target : Pattern)
  | member (span : Span) (object : Expr) (key : MemberKey)

structure PatternProperty where
  key : PropertyKey
  value : Pattern

structure Function where
  kind : FunctionKind
  name : Option Name
  params : List Pattern
  body : FunctionBody
  span : Span

inductive FunctionBody where
  | block (body : Block)
  | expression (value : Expr)

structure Block where
  body : List Stmt
  span : Span

inductive Stmt where
  | expression (span : Span) (value : Expr)
  | declaration (span : Span) (decl : Declaration)
  | function (span : Span) (fn : Function)
  | block (span : Span) (block : Block)
  | empty (span : Span)
  | if_ (span : Span) (test : Expr) (yes : Stmt) (no : Option Stmt)
  | for_ (span : Span) (init : ForInit) (test update : Option Expr) (body : Stmt)
  /-- A loop over keys or elements, whose target is declared or already exists. -/
  | forEach (span : Span) (mode : EachMode) (declared : Option DeclKind) (target : Pattern)
      (subject : Expr) (body : Stmt)
  | while_ (span : Span) (test : Expr) (body : Stmt)
  | doWhile (span : Span) (body : Stmt) (test : Expr)
  | break_ (span : Span)
  | continue_ (span : Span)
  | return_ (span : Span) (value : Option Expr)
  | throw_ (span : Span) (value : Expr)
  | try_ (span : Span) (block : Block) (handler : Handler) (finalizer : Option Block)
  | switch (span : Span) (subject : Expr) (cases : List Case)

structure Declaration where
  kind : DeclKind
  declarators : List Declarator
  span : Span

structure Declarator where
  target : Pattern
  init : Option Expr
  span : Span

inductive ForInit where
  | nothing
  | declaration (decl : Declaration)
  | expression (value : Expr)

/-- What catches the errors of a try statement. -/
inductive Handler where
  | nothing
  | catch_ (span : Span) (param : Option Pattern) (body : Block)

/-- A case of a switch; the default case has no test. -/
structure Case where
  test : Option Expr
  body : List Stmt
  span : Span

end

structure Program where
  body : List Stmt
  sourceFile : Option String
  span : Span

instance : Inhabited Expr := ⟨.null default⟩

instance : Inhabited Pattern := ⟨.identifier default ⟨"", default⟩⟩

instance : Inhabited Stmt := ⟨.empty default⟩

instance : Inhabited Function := ⟨⟨.arrow, none, [], .expression default, default⟩⟩

def Expr.span : Expr → Span
  | .number s _ | .string s _ | .boolean s _ | .null s | .template s _ _ | .identifier s _
  | .this s | .array s _ | .object s _ | .function s _ | .unary s _ _ | .update s _ _ _
  | .binary s _ _ _ | .logical s _ _ _ | .assign s _ _ _ | .conditional s _ _ _ | .call s _ _
  | .new s _ _ | .member s _ _ | .sequence s _ => s

def Pattern.span : Pattern → Span
  | .identifier s _ | .array s _ | .object s _ _ | .withDefault s _ _ | .rest s _
  | .member s _ _ => s

def Stmt.span : Stmt → Span
  | .expression s _ | .declaration s _ | .function s _ | .block s _ | .empty s | .if_ s _ _ _
  | .for_ s _ _ _ _ | .forEach s _ _ _ _ _ | .while_ s _ _ | .doWhile s _ _ | .break_ s
  | .continue_ s | .return_ s _ | .throw_ s _ | .try_ s _ _ _ | .switch s _ _ => s

def Function.isArrow (f : Function) : Bool :=
  f.kind == .arrow

/-- Whether a parameter counts towards the arity of its function. -/
def Pattern.isCounted : Pattern → Bool
  | .identifier _ _ | .array _ _ | .object _ _ _ => true
  | _ => false

/-- The count of parameters before the first one with a default value or the rest parameter. -/
def Function.arity (f : Function) : Nat :=
  (f.params.takeWhile Pattern.isCounted).length

/-- The name of a kind of statement in answers. -/
def Stmt.label : Stmt → String
  | .expression _ _ => "ExpressionStatement"
  | .declaration _ _ => "VariableDeclaration"
  | .function _ _ => "FunctionDeclaration"
  | .block _ _ => "BlockStatement"
  | .empty _ => "EmptyStatement"
  | .if_ _ _ _ _ => "IfStatement"
  | .for_ _ _ _ _ _ => "ForStatement"
  | .forEach _ .keys _ _ _ _ => "ForInStatement"
  | .forEach _ .elements _ _ _ _ => "ForOfStatement"
  | .while_ _ _ _ => "WhileStatement"
  | .doWhile _ _ _ => "DoWhileStatement"
  | .break_ _ => "BreakStatement"
  | .continue_ _ => "ContinueStatement"
  | .return_ _ _ => "ReturnStatement"
  | .throw_ _ _ => "ThrowStatement"
  | .try_ _ _ _ _ => "TryStatement"
  | .switch _ _ _ => "SwitchStatement"

/-- The name of a kind of expression in answers and messages. -/
def Expr.label : Expr → String
  | .number _ _ | .string _ _ | .boolean _ _ | .null _ => "Literal"
  | .template _ _ _ => "TemplateLiteral"
  | .identifier _ _ => "Identifier"
  | .this _ => "ThisExpression"
  | .array _ _ => "ArrayExpression"
  | .object _ _ => "ObjectExpression"
  | .function _ f => if f.isArrow then "ArrowFunctionExpression" else "FunctionExpression"
  | .unary _ _ _ => "UnaryExpression"
  | .update _ _ _ _ => "UpdateExpression"
  | .binary _ _ _ _ => "BinaryExpression"
  | .logical _ _ _ _ => "LogicalExpression"
  | .assign _ _ _ _ => "AssignmentExpression"
  | .conditional _ _ _ _ => "ConditionalExpression"
  | .call _ _ _ => "CallExpression"
  | .new _ _ _ => "NewExpression"
  | .member _ _ _ => "MemberExpression"
  | .sequence _ _ => "SequenceExpression"

/-- The name of a kind of pattern in answers and messages. -/
def Pattern.label : Pattern → String
  | .identifier _ _ => "Identifier"
  | .array _ _ => "ArrayPattern"
  | .object _ _ _ => "ObjectPattern"
  | .withDefault _ _ _ => "AssignmentPattern"
  | .rest _ _ => "RestElement"
  | .member _ _ _ => "MemberExpression"

end Scriptlet
