import Scriptlet.Tree.Basic

/-!
Grouping operands and operators by how tightly the operators bind.
-/

namespace Scriptlet.Tree

/-- The node of an operator. Its span reaches from the left operand to the right one. -/
def joinOperands (op : InfixOp) (left right : Expr) : Expr :=
  let span : Span := ⟨left.span.start, right.span.stop⟩
  match op with
  | .binary op => .binary span op left right
  | .logical op => .logical span op left right

/-- Whether `a`, standing to the left of `b`, takes the operand between them. -/
def takesOperand (a b : InfixOp) : Bool :=
  b.level < a.level || (a.level == b.level && !a.rightAssociative)

/-- Left operands that wait for a right one, nearest first. -/
abbrev Waiting := List (Expr × InfixOp)

/-- Joins the waiting operands that `next` leaves no choice about with what stands before it. -/
def settle (next : InfixOp) : Waiting → Expr → Waiting × Expr
  | [], right => ([], right)
  | (left, op) :: rest, right =>
    if takesOperand op next then settle next rest (joinOperands op left right)
    else ((left, op) :: rest, right)

/-- Joins all waiting operands. -/
def settleAll : Waiting → Expr → Expr
  | [], right => right
  | (left, op) :: rest, right => settleAll rest (joinOperands op left right)

/-- The tree of an operand, the operands waiting before it and the chain after it. -/
def climb : Waiting → Expr → List (InfixOp × Expr) → Expr
  | waiting, last, [] => settleAll waiting last
  | waiting, last, (op, operand) :: rest =>
    let (waiting, left) := settle op waiting last
    climb ((left, op) :: waiting) operand rest

/-- The tree of a chain of operands. -/
def group (first : Expr) (rest : List (InfixOp × Expr)) : Expr :=
  climb [] first rest

end Scriptlet.Tree
