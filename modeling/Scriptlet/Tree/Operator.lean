/-!
Operators of the language and their spelling.
-/

namespace Scriptlet

/-- The operators that compute a number (or, for `+`, a text) and also exist as assignments. -/
inductive ArithOp where
  | add
  | subtract
  | multiply
  | divide
  | modulo
  | exponent
  | shiftLeft
  | shiftRight
  | unsignedShiftRight
  | bitAnd
  | bitOr
  | bitXor
  deriving DecidableEq, Repr

inductive BinaryOp where
  | arith (op : ArithOp)
  | equal
  | notEqual
  | strictEqual
  | strictNotEqual
  | less
  | lessEqual
  | greater
  | greaterEqual
  | in_
  | instanceOf
  deriving DecidableEq, Repr

/-- The operators that may leave their right operand unevaluated. -/
inductive LogicalOp where
  | and
  | or
  | nullish
  deriving DecidableEq, Repr

/-- Every operator that stands between two operands. -/
inductive InfixOp where
  | binary (op : BinaryOp)
  | logical (op : LogicalOp)
  deriving DecidableEq, Repr

inductive UnaryOp where
  | minus
  | plus
  | not
  | bitNot
  | typeOf
  | void
  | delete
  deriving DecidableEq, Repr

inductive UpdateOp where
  | increment
  | decrement
  deriving DecidableEq, Repr

inductive AssignOp where
  | plain
  | compound (op : ArithOp)
  | logical (op : LogicalOp)
  deriving DecidableEq, Repr

def ArithOp.symbol : ArithOp → String
  | .add => "+"
  | .subtract => "-"
  | .multiply => "*"
  | .divide => "/"
  | .modulo => "%"
  | .exponent => "**"
  | .shiftLeft => "<<"
  | .shiftRight => ">>"
  | .unsignedShiftRight => ">>>"
  | .bitAnd => "&"
  | .bitOr => "|"
  | .bitXor => "^"

def BinaryOp.symbol : BinaryOp → String
  | .arith op => op.symbol
  | .equal => "=="
  | .notEqual => "!="
  | .strictEqual => "==="
  | .strictNotEqual => "!=="
  | .less => "<"
  | .lessEqual => "<="
  | .greater => ">"
  | .greaterEqual => ">="
  | .in_ => "in"
  | .instanceOf => "instanceof"

def LogicalOp.symbol : LogicalOp → String
  | .and => "&&"
  | .or => "||"
  | .nullish => "??"

def InfixOp.symbol : InfixOp → String
  | .binary op => op.symbol
  | .logical op => op.symbol

def UnaryOp.symbol : UnaryOp → String
  | .minus => "-"
  | .plus => "+"
  | .not => "!"
  | .bitNot => "~"
  | .typeOf => "typeof"
  | .void => "void"
  | .delete => "delete"

def UpdateOp.symbol : UpdateOp → String
  | .increment => "++"
  | .decrement => "--"

def AssignOp.symbol : AssignOp → String
  | .plain => "="
  | .compound op => op.symbol ++ "="
  | .logical op => op.symbol ++ "="

/-- How tightly an operator binds; the loosest is 1. -/
def InfixOp.level : InfixOp → Nat
  | .logical .nullish => 1
  | .logical .or => 2
  | .logical .and => 3
  | .binary (.arith .bitOr) => 4
  | .binary (.arith .bitXor) => 5
  | .binary (.arith .bitAnd) => 6
  | .binary .equal | .binary .notEqual | .binary .strictEqual | .binary .strictNotEqual => 7
  | .binary .less | .binary .lessEqual | .binary .greater | .binary .greaterEqual => 8
  | .binary .instanceOf | .binary .in_ => 8
  | .binary (.arith .shiftLeft) | .binary (.arith .shiftRight) => 9
  | .binary (.arith .unsignedShiftRight) => 9
  | .binary (.arith .add) | .binary (.arith .subtract) => 10
  | .binary (.arith .multiply) | .binary (.arith .divide) | .binary (.arith .modulo) => 11
  | .binary (.arith .exponent) => 12

/-- Whether a chain of this operator groups from the right. -/
def InfixOp.rightAssociative (op : InfixOp) : Bool :=
  op.level == 12

end Scriptlet
