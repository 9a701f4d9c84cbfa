import Scriptlet.Eval.Property

/-!
The evaluator seen from one of its parts.

Each part of the evaluator is written against the record below, which says how to go on with the
constructs inside; the record is tied to the parts in `Scriptlet.Eval.Run`.
-/

namespace Scriptlet

/-- How a statement ends. -/
inductive Completion where
  | normal (value : Value)
  | break_
  | continue_
  | return_ (value : Value)
  deriving Repr

/-- A statement that ends without a value. -/
def Completion.empty : Completion := .normal .undefined

/-- How the names of a pattern get their values. -/
inductive BindMode where
  | declare (kind : DeclKind)
  | assign
  deriving DecidableEq, Repr

/-- How to evaluate what is nested in a construct, with the fuel that is left for it. -/
structure Recursion where
  fuel : Nat
  expr : Expr → ScopeId → Eval Value
  stmt : Stmt → ScopeId → Eval Completion
  bind : BindMode → Pattern → Value → ScopeId → Eval Unit
  /-- Calls the first value on the second one. -/
  call : Value → Value → List Value → Eval Value
  /-- Runs the body of a function in its scope. -/
  body : Function → ScopeId → Eval Value

end Scriptlet
