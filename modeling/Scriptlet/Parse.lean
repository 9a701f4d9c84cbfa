import Scriptlet.Tree.Binding
import Scriptlet.Tree.Expression
import Scriptlet.Tree.FreeReturn
import Scriptlet.Tree.Statement

/-!
From a source text to a program.

The grammar decides whether a text is admitted and what its parts are; building the program tree
may still refuse it, with the first error in the order of the text. A return statement outside of a
function is refused last, and only on request.
-/

namespace Scriptlet

open Grammar (Rule Keyword Node)

namespace Tree

/-- The piece of a rule. -/
def piece (rule : Rule) (span : Span) (text : String) (parts : List Part) : Build Piece :=
  match rule with
  | .keyword _ | .identifier | .propertyName | .hexNumber | .decimalNumber | .doubleChars
  | .singleChars | .templateChars | .assignOp _ | .infixOp _ | .unaryOp _ | .updateOp _
  | .endOfInput => return .token text
  | .number => number span parts
  | .string => string span parts
  | .template => template span parts
  | .boolean => return boolean span parts
  | .nullLiteral => return .expr (.null span)
  | .thisLiteral => return .expr (.this span)
  | .expression => expression span parts
  | .assignment => assignment span parts
  | .assignOperator => assignOperator span parts
  | .conditional => conditional span parts
  | .binary => binary span parts
  | .unary => return .expr (← unaryChain parts)
  | .unaryOperator => leading span parts
  | .update => update span parts
  | .postfixOperator => postfixOperator span parts
  | .leftHandSide => leftHandSide span parts
  | .newExpression => newExpression span parts
  | .staticMember => staticMember span parts
  | .computedMember => computedMember span parts
  | .arguments => arguments parts
  | .spread => spread span parts
  | .parenthesized | .substitution | .computedKey => wrapped span parts
  | .arrayLiteral => arrayLiteral span parts
  | .arraySlot => arraySlot span parts
  | .objectLiteral => objectLiteral span parts
  | .propertyAssignment => propertyAssignment span parts
  | .method => method span parts
  | .shorthand => shorthand span parts
  | .propertyKey => propertyKey span parts
  | .functionDeclaration => functionDeclaration span parts
  | .functionExpression => functionExpression span parts
  | .parameters => parameters parts
  | .functionBody | .blockStatement => functionBlock span parts
  | .arrowFunction => arrowFunction span parts
  | .arrowParameters => arrowParameters span parts
  | .arrowBody => arrowBody span parts
  | .bindingElement => bindingElement span parts
  | .restElement => restElement span parts
  | .arrayBinding => arrayBinding span parts
  | .arrayBindingSlot => arrayBindingSlot span parts
  | .objectBinding => objectBinding span parts
  | .objectBindingProperty => objectBindingProperty span parts
  | .emptyStatement => return .stmt (.empty span)
  | .variableStatement => variableStatement span parts
  | .variableDeclaration => variableDeclaration span parts
  | .declarationKind => declarationKind span parts
  | .declarator => declarator span parts
  | .ifStatement => ifStatement span parts
  | .forStatement => forStatement span parts
  | .forInit => forInit span parts
  | .forTest => forTest span parts
  | .forUpdate => forUpdate span parts
  | .forEachStatement => forEachStatement span parts
  | .forEachLeft => forEachLeft span parts
  | .forDeclaration => forDeclaration span parts
  | .whileStatement => whileStatement span parts
  | .doWhileStatement => doWhileStatement span parts
  | .breakStatement => return .stmt (.break_ span)
  | .continueStatement => return .stmt (.continue_ span)
  | .returnStatement => returnStatement span parts
  | .throwStatement => throwStatement span parts
  | .tryStatement => tryStatement span parts
  | .catchClause => catchClause span parts
  | .finallyClause => finallyClause span parts
  | .switchStatement => switchStatement span parts
  | .switchCase => switchCase span parts
  | .expressionStatement => expressionStatement span parts
  | .program => program parts
  | .reservedWord | .nameStart | .nameChar | .exponent | .escape | .infixOperator | .primary
  | .objectMember | .bindingTarget | .objectBindingMember | .statement =>
    unexpected span "a statement"

/-- Builds a node. -/
def part (rule : Rule) (span : Span) (text : String) (parts : List Part) : Part :=
  ⟨rule, span, piece rule span text parts⟩

def build (n : Node Rule) : Part := fold part n

/-- The statements of a program node. -/
def statements (n : Node Rule) : Build (List Stmt) := do
  match ← (build n).piece with
  | .program body => return body
  | _ => unexpected n.span "a program"

end Tree

/-! ### Places in the text -/

/-- The line and the column, counted in characters from one, of the place after `bytes` bytes. -/
def lineColumn : List Char → Nat → Nat → Nat → Nat × Nat
  | _, 0, line, column => (line, column)
  | [], _, line, column => (line, column)
  | '\r' :: '\n' :: rest, bytes + 1, line, column =>
    if bytes = 0 then (line, column + 1) else lineColumn rest (bytes - 1) (line + 1) 1
  | '\n' :: rest, bytes + 1, line, _ => lineColumn rest bytes (line + 1) 1
  | c :: rest, bytes + 1, line, column =>
    lineColumn rest (bytes + 1 - c.utf8Size) line (column + 1)

/-! ### Expectations -/

/-- A text among sorted ones, once. -/
def insertSorted (s : String) : List String → List String
  | [] => [s]
  | t :: rest =>
    if s = t then t :: rest
    else if s < t then s :: t :: rest
    else t :: insertSorted s rest

/-- What was expected, sorted and without repetition. -/
def expectations (rules : List Rule) : List String :=
  rules.foldl (fun acc r => insertSorted r.description acc) []

/-- The error of a text that the grammar refuses. -/
def rejection (source : String) (trail : Grammar.Trail Rule) : ParseError :=
  let (line, column) := lineColumn source.toList trail.place 1 1
  ⟨.rejected (expectations trail.expected) line column, ⟨trail.place, trail.place⟩, source⟩

/-! ### Entry points -/

structure ParseOptions where
  sourceFile : Option String := none
  /-- Whether a return statement may stand outside of a function. -/
  allowReturn : Bool := false

/-- The program that a source text stands for. -/
def parseProgram (source : String) (options : ParseOptions) : Except ParseError Program :=
  match Grammar.script.parse .program source with
  | .matched [n] _ _ =>
    match Tree.statements n with
    | .error e => .error (e.within source)
    | .ok body =>
      match if options.allowReturn then none else firstFreeReturn? body with
      | some span => .error ⟨.strayReturn, span, source⟩
      | none => .ok ⟨body, options.sourceFile, n.span⟩
  | .matched _ _ trail => .error (rejection source trail)
  | .refused trail => .error (rejection source trail)
  | .exhausted => .error (rejection source .empty)

/-- The expression that the first statement of a source text consists of. -/
def parseExpression (source : String) : Except ParseError Expr := do
  let program ← parseProgram source {}
  match program.body with
  | [] => .error ⟨.unexpected "an expression", ⟨0, source.utf8ByteSize⟩, source⟩
  | .expression _ e :: _ => return e
  | s :: _ => .error ⟨.unexpected "an expression", s.span, source⟩

end Scriptlet
