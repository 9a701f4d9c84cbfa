import Scriptlet.Grammar.Peg
import Scriptlet.Grammar.Rule

/-!
The grammar of programs.
-/

namespace Scriptlet.Grammar

/-- A literal text. -/
def lit (s : String) : Peg Rule := .text s.toList

/-- All of the expressions, one after the other. -/
def seqs : List (Peg Rule) → Peg Rule
  | [] => .text []
  | [e] => e
  | e :: rest => .seq e (seqs rest)

/-- The first of the expressions that matches. -/
def alts : List (Peg Rule) → Peg Rule
  | [] => .not (.text [])
  | [e] => e
  | e :: rest => .alt e (alts rest)

/-- The expression once or more often. -/
def plus (e : Peg Rule) : Peg Rule := .seq e (.star e)

/-- The first of the rules that matches. -/
def anyOf (rs : List Rule) : Peg Rule := alts (rs.map .rule)

def word (k : Keyword) : Peg Rule := .rule (.keyword k)

/-- Any character at which the given expression does not match. -/
def except (e : Peg Rule) : Peg Rule := .seq (.not e) (.char .any)

/-- Items between commas. -/
def list (e : Peg Rule) : Peg Rule := .seq e (.star (.seq (lit ",") e))

/-- Items between commas, with an optional comma at the end, or nothing. -/
def optionalList (e : Peg Rule) : Peg Rule :=
  .opt (seqs [e, .star (.seq (lit ",") e), .opt (lit ",")])

def lineComment : Peg Rule := .seq (lit "//") (.star (except (alts [lit "\n", lit "\r"])))

def blockComment : Peg Rule := seqs [lit "/*", .star (except (lit "*/")), lit "*/"]

/-- Blanks and comments. -/
def layout : Peg Rule := .star (alts [.char .blank, lineComment, blockComment])

/-- Longer operators stand before those they start with. -/
def assignOps : List AssignOp :=
  [.compound .unsignedShiftRight, .compound .shiftLeft, .compound .shiftRight, .compound .exponent,
    .logical .and, .logical .or, .logical .nullish, .compound .add, .compound .subtract,
    .compound .multiply, .compound .divide, .compound .modulo, .compound .bitAnd, .compound .bitOr,
    .compound .bitXor, .plain]

/-- Longer operators stand before those they start with. -/
def infixOps : List InfixOp :=
  [.binary .strictEqual, .binary .strictNotEqual, .binary .equal, .binary .notEqual,
    .binary (.arith .unsignedShiftRight), .binary (.arith .shiftLeft), .binary (.arith .shiftRight),
    .binary .lessEqual, .binary .greaterEqual, .binary .less, .binary .greater,
    .binary (.arith .exponent), .binary (.arith .multiply), .binary (.arith .divide),
    .binary (.arith .modulo), .binary (.arith .add), .binary (.arith .subtract),
    .logical .and, .logical .or, .logical .nullish,
    .binary (.arith .bitAnd), .binary (.arith .bitOr), .binary (.arith .bitXor)]

/-- Characters of a string between quotes `q`. -/
def stringChars (q : String) : Peg Rule :=
  .star (alts [.rule .escape, except (alts [lit q, lit "\\", lit "\n", lit "\r"])])

/-- A condition or subject in parentheses. -/
def inParens (e : Peg Rule) : Peg Rule := seqs [lit "(", e, lit ")"]

def block : Peg Rule := seqs [lit "\x7b", .star (.rule .statement), lit "\x7d"]

def semicolon : Peg Rule := .opt (lit ";")

def initializer : Peg Rule := .opt (.seq (lit "=") (.rule .assignment))

def define : Rule → Definition Rule
  | .program => ⟨.plain, seqs [.start, .star (.rule .statement), .rule .endOfInput]⟩
  | .endOfInput => ⟨.plain, .finish⟩
  -- words
  | .keyword k => ⟨.token, .seq (lit k.text) (.not (.rule .nameChar))⟩
  | .reservedWord => ⟨.token, anyOf (Keyword.reserved.map .keyword)⟩
  | .nameStart => ⟨.silent, alts [.char .alpha, lit "_", lit "$", .char .letter]⟩
  | .nameChar => ⟨.silent, .alt (.rule .nameStart) (.char .digit)⟩
  | .identifier =>
    ⟨.token, seqs [.not (.rule .reservedWord), .rule .nameStart, .star (.rule .nameChar)]⟩
  | .propertyName => ⟨.token, .seq (.rule .nameStart) (.star (.rule .nameChar))⟩
  -- literals
  | .number => ⟨.joined, .seq (anyOf [.hexNumber, .decimalNumber]) (.not (.rule .nameStart))⟩
  | .hexNumber => ⟨.token, .seq (alts [lit "0x", lit "0X"]) (plus (.char .hexDigit))⟩
  | .decimalNumber =>
    ⟨.token,
      .seq
        (alts [
          .seq (plus (.char .digit)) (.opt (.seq (lit ".") (.star (.char .digit)))),
          .seq (lit ".") (plus (.char .digit))])
        (.opt (.rule .exponent))⟩
  | .exponent =>
    ⟨.token,
      seqs [alts [lit "e", lit "E"], .opt (alts [lit "+", lit "-"]), plus (.char .digit)]⟩
  | .escape => ⟨.silent, .seq (lit "\\") (alts [lit "\r\n", .char .any])⟩
  | .string =>
    ⟨.joined,
      alts [
        seqs [lit "\"", .rule .doubleChars, lit "\""],
        seqs [lit "'", .rule .singleChars, lit "'"]]⟩
  | .doubleChars => ⟨.token, stringChars "\""⟩
  | .singleChars => ⟨.token, stringChars "'"⟩
  | .template =>
    ⟨.joined, seqs [lit "`", .star (anyOf [.substitution, .templateChars]), lit "`"]⟩
  | .templateChars =>
    ⟨.token, plus (alts [.rule .escape, except (alts [lit "`", lit "\\", lit "$\x7b"])])⟩
  | .substitution => ⟨.spaced, seqs [lit "$\x7b", .rule .expression, lit "\x7d"]⟩
  | .boolean => ⟨.plain, anyOf [.keyword .true_, .keyword .false_]⟩
  | .nullLiteral => ⟨.plain, word .null_⟩
  | .thisLiteral => ⟨.plain, word .this_⟩
  -- expressions
  | .expression => ⟨.plain, list (.rule .assignment)⟩
  | .assignment =>
    ⟨.plain,
      alts [
        .rule .arrowFunction,
        .seq (.rule .conditional) (.opt (.seq (.rule .assignOperator) (.rule .assignment)))]⟩
  | .assignOperator => ⟨.plain, anyOf (assignOps.map .assignOp)⟩
  | .assignOp .plain => ⟨.token, .seq (lit "=") (.not (alts [lit "=", lit ">"]))⟩
  | .assignOp op => ⟨.plain, lit op.symbol⟩
  | .conditional =>
    ⟨.plain,
      .seq (.rule .binary)
        (.opt (seqs [lit "?", .rule .assignment, lit ":", .rule .assignment]))⟩
  | .binary => ⟨.plain, .seq (.rule .unary) (.star (.seq (.rule .infixOperator) (.rule .unary)))⟩
  | .infixOperator =>
    ⟨.silent, anyOf (infixOps.map .infixOp ++ [.keyword .instanceof_, .keyword .in_])⟩
  | .infixOp op => ⟨.plain, lit op.symbol⟩
  | .unary => ⟨.plain, .seq (.star (.rule .unaryOperator)) (.rule .update)⟩
  | .unaryOperator =>
    ⟨.plain,
      anyOf [
        .updateOp .increment, .updateOp .decrement, .unaryOp .not, .unaryOp .bitNot, .unaryOp .plus,
        .unaryOp .minus, .keyword .typeof_, .keyword .void_, .keyword .delete_]⟩
  | .unaryOp op => ⟨.plain, lit op.symbol⟩
  | .updateOp op => ⟨.plain, lit op.symbol⟩
  | .update => ⟨.plain, .seq (.rule .leftHandSide) (.opt (.rule .postfixOperator))⟩
  | .postfixOperator => ⟨.plain, anyOf [.updateOp .increment, .updateOp .decrement]⟩
  | .leftHandSide =>
    ⟨.plain,
      .seq (anyOf [.newExpression, .primary])
        (.star (anyOf [.staticMember, .computedMember, .arguments]))⟩
  | .newExpression =>
    ⟨.plain,
      seqs [
        word .new_, anyOf [.newExpression, .primary],
        .star (anyOf [.staticMember, .computedMember]), .opt (.rule .arguments)]⟩
  | .staticMember => ⟨.plain, .seq (lit ".") (.rule .propertyName)⟩
  | .computedMember => ⟨.plain, seqs [lit "[", .rule .expression, lit "]"]⟩
  | .arguments => ⟨.plain, inParens (optionalList (anyOf [.spread, .assignment]))⟩
  | .spread => ⟨.plain, .seq (lit "...") (.rule .assignment)⟩
  | .primary =>
    ⟨.silent,
      anyOf [
        .functionExpression, .thisLiteral, .nullLiteral, .boolean, .number, .string, .template,
        .arrayLiteral, .objectLiteral, .parenthesized, .identifier]⟩
  | .parenthesized => ⟨.plain, inParens (.rule .expression)⟩
  | .arrayLiteral => ⟨.plain, seqs [lit "[", .opt (list (.rule .arraySlot)), lit "]"]⟩
  | .arraySlot => ⟨.plain, .opt (anyOf [.spread, .assignment])⟩
  | .objectLiteral => ⟨.plain, seqs [lit "\x7b", optionalList (.rule .objectMember), lit "\x7d"]⟩
  | .objectMember => ⟨.silent, anyOf [.spread, .method, .propertyAssignment, .shorthand]⟩
  | .propertyAssignment => ⟨.plain, seqs [.rule .propertyKey, lit ":", .rule .assignment]⟩
  | .method => ⟨.plain, seqs [.rule .propertyKey, .rule .parameters, .rule .functionBody]⟩
  | .shorthand => ⟨.plain, .rule .identifier⟩
  | .propertyKey => ⟨.plain, anyOf [.computedKey, .string, .number, .propertyName]⟩
  | .computedKey => ⟨.plain, seqs [lit "[", .rule .assignment, lit "]"]⟩
  -- functions and patterns
  | .functionDeclaration =>
    ⟨.plain, seqs [word .function_, .rule .identifier, .rule .parameters, .rule .functionBody]⟩
  | .functionExpression =>
    ⟨.plain,
      seqs [word .function_, .opt (.rule .identifier), .rule .parameters, .rule .functionBody]⟩
  | .parameters => ⟨.plain, inParens (optionalList (anyOf [.restElement, .bindingElement]))⟩
  | .functionBody => ⟨.plain, block⟩
  | .arrowFunction => ⟨.plain, seqs [.rule .arrowParameters, lit "=>", .rule .arrowBody]⟩
  | .arrowParameters => ⟨.plain, anyOf [.identifier, .parameters]⟩
  | .arrowBody => ⟨.plain, anyOf [.functionBody, .assignment]⟩
  | .bindingElement => ⟨.plain, .seq (.rule .bindingTarget) initializer⟩
  | .restElement => ⟨.plain, .seq (lit "...") (.rule .bindingTarget)⟩
  | .bindingTarget => ⟨.silent, anyOf [.arrayBinding, .objectBinding, .identifier]⟩
  | .arrayBinding => ⟨.plain, seqs [lit "[", .opt (list (.rule .arrayBindingSlot)), lit "]"]⟩
  | .arrayBindingSlot => ⟨.plain, .opt (anyOf [.restElement, .bindingElement])⟩
  | .objectBinding =>
    ⟨.plain, seqs [lit "\x7b", optionalList (.rule .objectBindingMember), lit "\x7d"]⟩
  | .objectBindingMember =>
    ⟨.silent, anyOf [.restElement, .objectBindingProperty, .bindingElement]⟩
  | .objectBindingProperty =>
    ⟨.plain, seqs [.rule .propertyKey, lit ":", .rule .bindingElement]⟩
  -- statements
  | .statement =>
    ⟨.silent,
      anyOf [
        .blockStatement, .emptyStatement, .variableStatement, .functionDeclaration, .ifStatement,
        .forEachStatement, .forStatement, .whileStatement, .doWhileStatement, .breakStatement,
        .continueStatement, .returnStatement, .throwStatement, .tryStatement, .switchStatement,
        .expressionStatement]⟩
  | .blockStatement => ⟨.plain, block⟩
  | .emptyStatement => ⟨.plain, lit ";"⟩
  | .variableStatement => ⟨.plain, .seq (.rule .variableDeclaration) semicolon⟩
  | .variableDeclaration => ⟨.plain, .seq (.rule .declarationKind) (list (.rule .declarator))⟩
  | .declarationKind => ⟨.plain, anyOf [.keyword .var_, .keyword .let_, .keyword .const_]⟩
  | .declarator => ⟨.plain, .seq (.rule .bindingTarget) initializer⟩
  | .ifStatement =>
    ⟨.plain,
      seqs [
        word .if_, inParens (.rule .expression), .rule .statement,
        .opt (.seq (word .else_) (.rule .statement))]⟩
  | .forStatement =>
    ⟨.plain,
      seqs [
        word .for_, lit "(", .opt (.rule .forInit), lit ";", .opt (.rule .forTest), lit ";",
        .opt (.rule .forUpdate), lit ")", .rule .statement]⟩
  | .forInit => ⟨.plain, anyOf [.variableDeclaration, .expression]⟩
  | .forTest => ⟨.plain, .rule .expression⟩
  | .forUpdate => ⟨.plain, .rule .expression⟩
  | .forEachStatement =>
    ⟨.plain,
      seqs [
        word .for_, lit "(", .rule .forEachLeft, anyOf [.keyword .of_, .keyword .in_],
        .rule .expression, lit ")", .rule .statement]⟩
  | .forEachLeft => ⟨.plain, anyOf [.forDeclaration, .leftHandSide]⟩
  | .forDeclaration => ⟨.plain, .seq (.rule .declarationKind) (.rule .bindingTarget)⟩
  | .whileStatement =>
    ⟨.plain, seqs [word .while_, inParens (.rule .expression), .rule .statement]⟩
  | .doWhileStatement =>
    ⟨.plain,
      seqs [
        word .do_, .rule .statement, word .while_, inParens (.rule .expression), semicolon]⟩
  | .breakStatement => ⟨.plain, .seq (word .break_) semicolon⟩
  | .continueStatement => ⟨.plain, .seq (word .continue_) semicolon⟩
  | .returnStatement => ⟨.plain, seqs [word .return_, .opt (.rule .expression), semicolon]⟩
  | .throwStatement => ⟨.plain, seqs [word .throw_, .rule .expression, semicolon]⟩
  | .tryStatement =>
    ⟨.plain,
      seqs [
        word .try_, .rule .blockStatement, .opt (.rule .catchClause), .opt (.rule .finallyClause)]⟩
  | .catchClause =>
    ⟨.plain,
      seqs [word .catch_, .opt (inParens (.rule .bindingTarget)), .rule .blockStatement]⟩
  | .finallyClause => ⟨.plain, .seq (word .finally_) (.rule .blockStatement)⟩
  | .switchStatement =>
    ⟨.plain,
      seqs [
        word .switch_, inParens (.rule .expression), lit "\x7b", .star (.rule .switchCase),
        lit "\x7d"]⟩
  | .switchCase =>
    ⟨.plain,
      seqs [
        alts [.seq (word .case_) (.rule .expression), word .default_], lit ":",
        .star (.rule .statement)]⟩
  | .expressionStatement => ⟨.plain, .seq (.rule .expression) semicolon⟩

/-- The grammar of programs. -/
def script : RuleSet Rule := ⟨define, layout⟩

end Scriptlet.Grammar
