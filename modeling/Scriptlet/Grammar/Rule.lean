import Scriptlet.Tree.Operator

/-!
The rules of the grammar.
-/

namespace Scriptlet.Grammar

inductive Keyword where
  | break_ | case_ | catch_ | const_ | continue_ | default_ | delete_ | do_ | else_ | false_
  | finally_ | for_ | function_ | if_ | instanceof_ | in_ | let_ | new_ | null_ | return_
  | switch_ | this_ | throw_ | true_ | try_ | typeof_ | var_ | void_ | while_
  /-- Stays usable as a name. -/
  | of_
  deriving DecidableEq, Repr

def Keyword.text : Keyword → String
  | .break_ => "break"
  | .case_ => "case"
  | .catch_ => "catch"
  | .const_ => "const"
  | .continue_ => "continue"
  | .default_ => "default"
  | .delete_ => "delete"
  | .do_ => "do"
  | .else_ => "else"
  | .false_ => "false"
  | .finally_ => "finally"
  | .for_ => "for"
  | .function_ => "function"
  | .if_ => "if"
  | .instanceof_ => "instanceof"
  | .in_ => "in"
  | .let_ => "let"
  | .new_ => "new"
  | .null_ => "null"
  | .return_ => "return"
  | .switch_ => "switch"
  | .this_ => "this"
  | .throw_ => "throw"
  | .true_ => "true"
  | .try_ => "try"
  | .typeof_ => "typeof"
  | .var_ => "var"
  | .void_ => "void"
  | .while_ => "while"
  | .of_ => "of"

/-- The words that are no names. -/
def Keyword.reserved : List Keyword :=
  [.break_, .case_, .catch_, .const_, .continue_, .default_, .delete_, .do_, .else_, .false_,
    .finally_, .for_, .function_, .if_, .instanceof_, .in_, .let_, .new_, .null_, .return_,
    .switch_, .this_, .throw_, .true_, .try_, .typeof_, .var_, .void_, .while_]

inductive Rule where
  | program | endOfInput
  -- words
  | keyword (k : Keyword) | reservedWord | nameStart | nameChar | identifier | propertyName
  -- literals
  | number | hexNumber | decimalNumber | exponent
  | escape | string | doubleChars | singleChars | template | templateChars | substitution
  | boolean | nullLiteral | thisLiteral
  -- expressions
  | expression | assignment | assignOperator | assignOp (op : AssignOp)
  | conditional | binary | infixOperator | infixOp (op : InfixOp)
  | unary | unaryOperator | unaryOp (op : UnaryOp) | updateOp (op : UpdateOp)
  | update | postfixOperator
  | leftHandSide | newExpression | staticMember | computedMember | arguments | spread
  | primary | parenthesized
  | arrayLiteral | arraySlot
  | objectLiteral | objectMember | propertyAssignment | method | shorthand | propertyKey
  | computedKey
  -- functions and patterns
  | functionDeclaration | functionExpression | parameters | functionBody
  | arrowFunction | arrowParameters | arrowBody
  | bindingElement | restElement | bindingTarget | arrayBinding | arrayBindingSlot
  | objectBinding | objectBindingMember | objectBindingProperty
  -- statements
  | statement | blockStatement | emptyStatement | variableStatement | variableDeclaration
  | declarationKind | declarator | ifStatement
  | forStatement | forInit | forTest | forUpdate
  | forEachStatement | forEachLeft | forDeclaration
  | whileStatement | doWhileStatement | breakStatement | continueStatement | returnStatement
  | throwStatement | tryStatement | catchClause | finallyClause
  | switchStatement | switchCase | expressionStatement
  deriving DecidableEq, Repr

/-- How a rule is named to someone who wrote a text that it was expected in. -/
def Rule.description : Rule → String
  | .endOfInput => "end of input"
  | .identifier | .propertyName => "an identifier"
  | .number | .hexNumber | .decimalNumber => "a number"
  | .string => "a string"
  | .template => "a template literal"
  | .expression | .assignment | .conditional | .binary | .unary | .update | .leftHandSide =>
    "an expression"
  | .assignOperator => "an assignment operator"
  | .unaryOperator => "a unary operator"
  | .arguments => "an argument list"
  | .arrayLiteral => "an array literal"
  | .objectLiteral => "an object literal"
  | .propertyKey => "a property name"
  | .parameters => "a parameter list"
  | .functionBody | .blockStatement => "a block"
  | .bindingElement | .arrayBinding | .objectBinding => "a binding pattern"
  | .declarator => "a variable declarator"
  | .catchClause => "a catch clause"
  | .finallyClause => "a finally clause"
  | .switchCase => "a case clause"
  | .keyword .while_ => "`while`"
  | .keyword .of_ => "`of`"
  | .keyword .in_ => "`in`"
  | .variableStatement | .functionDeclaration | .ifStatement | .forStatement | .forEachStatement
  | .whileStatement | .doWhileStatement | .returnStatement | .throwStatement | .tryStatement
  | .switchStatement | .expressionStatement => "a statement"
  | _ => "a token"

end Scriptlet.Grammar
