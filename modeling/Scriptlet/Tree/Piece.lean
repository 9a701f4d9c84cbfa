import Scriptlet.Grammar.Rules
import Scriptlet.ParseError
import Scriptlet.Tree.Basic

/-!
What the rules of the grammar stand for. Every node of a match becomes a piece of the program tree,
built from the pieces of its children; a child that could not be built keeps its error until its
turn comes.
-/

namespace Scriptlet.Tree

open Grammar (Rule Keyword Node)

abbrev Build := Except BuildError

/-- What follows an object or a callee. -/
inductive Suffix where
  | static (name : Name)
  | computed (key : Expr)
  | call (arguments : List Item)

/-- An operator before its operand. -/
inductive Leading where
  | unary (op : UnaryOp)
  | update (op : UpdateOp)

inductive Piece where
  /-- A token, which its rule and text say all about. -/
  | token (text : String)
  | number (value : Float)
  | string (value : String)
  | expr (e : Expr)
  | leading (op : Leading)
  | update (op : UpdateOp)
  | assignOp (op : AssignOp)
  | suffix (s : Suffix)
  | spread (e : Expr)
  | slot (item : Item)
  | key (key : PropertyKey)
  | member (m : Member)
  | pattern (p : Pattern)
  | bindingSlot (p : Option Pattern)
  | bindingProperty (p : PatternProperty)
  | parameters (params : List Pattern)
  | functionBody (body : FunctionBody)
  | block (b : Block)
  | stmt (s : Stmt)
  | declKind (k : DeclKind)
  | declarator (d : Declarator)
  | declaration (d : Declaration)
  | forInit (init : ForInit)
  | forTest (e : Expr)
  | forUpdate (e : Expr)
  | eachTarget (declared : Option DeclKind) (target : Pattern)
  | handler (h : Handler)
  | finalizer (b : Block)
  | case (c : Case)
  | program (body : List Stmt)

/-- A node with what it stands for. -/
structure Part where
  rule : Rule
  span : Span
  piece : Build Piece

mutual

/-- Builds a node from its built children, from the leaves up. -/
def fold {R α : Type} (f : R → Span → String → List α → α) : Node R → α
  | ⟨rule, span, text, children⟩ => f rule span text (foldAll f children)

def foldAll {R α : Type} (f : R → Span → String → List α → α) : List (Node R) → List α
  | [] => []
  | n :: rest => fold f n :: foldAll f rest

end

/-- The error of a place where something else should stand. -/
def unexpected {α : Type} (span : Span) (what : String) : Build α :=
  .error ⟨.unexpected what, span⟩

namespace Part

/-- The token of a name. -/
def name (p : Part) : Build Name := do
  match ← p.piece with
  | .token text => return ⟨text, p.span⟩
  | _ => unexpected p.span "an identifier"

/-- The expression that a part stands for. -/
def expr (p : Part) : Build Expr := do
  match ← p.piece with
  | .expr e => return e
  | .token text =>
    if p.rule = .identifier then return .identifier p.span ⟨text, p.span⟩
    else unexpected p.span "an expression"
  | .number x => return .number p.span x
  | .string s => return .string p.span s
  | _ => unexpected p.span "an expression"

/-- The pattern that a part stands for. -/
def pattern (p : Part) : Build Pattern := do
  match ← p.piece with
  | .pattern q => return q
  | .token text =>
    if p.rule = .identifier then return .identifier p.span ⟨text, p.span⟩
    else unexpected p.span "a binding pattern"
  | _ => unexpected p.span "a binding pattern"

def block (p : Part) : Build Block := do
  match ← p.piece with
  | .block b => return b
  | _ => unexpected p.span "a block"

/-- The statement that a part stands for. -/
def stmt (p : Part) : Build Stmt := do
  match ← p.piece with
  | .stmt s => return s
  | .block b => return .block p.span b
  | _ => unexpected p.span "a statement"

def parameters (p : Part) : Build (List Pattern) := do
  match ← p.piece with
  | .parameters ps => return ps
  | _ => unexpected p.span "a parameter list"

def key (p : Part) : Build PropertyKey := do
  match ← p.piece with
  | .key k => return k
  | _ => unexpected p.span "a property name"

/-- The operator between two operands. -/
def infixOp (p : Part) : Build InfixOp :=
  match p.rule with
  | .infixOp op => .ok op
  | .keyword .in_ => .ok (.binary .in_)
  | .keyword .instanceof_ => .ok (.binary .instanceOf)
  | _ => unexpected p.span "an operator"

end Part

/-- The values of parts in order, up to the first error. -/
def each {α : Type} (f : Part → Build α) : List Part → Build (List α)
  | [] => .ok []
  | p :: rest => do
    let a ← f p
    let as ← each f rest
    return a :: as

end Scriptlet.Tree
