import Scriptlet.Tree.Piece
import Scriptlet.Tree.Target

/-!
Building statements.
-/

namespace Scriptlet.Tree

open Grammar (Rule Keyword)

def declarationKind (span : Span) : List Part → Build Piece
  | [⟨.keyword .var_, _, _⟩] => return .declKind .var
  | [⟨.keyword .let_, _, _⟩] => return .declKind .let_
  | [⟨.keyword .const_, _, _⟩] => return .declKind .const
  | _ => unexpected span "a declaration"

def Part.declKind (p : Part) : Build DeclKind := do
  match ← p.piece with
  | .declKind k => return k
  | _ => unexpected p.span "a declaration"

def declarator (span : Span) : List Part → Build Piece
  | [target] => return .declarator ⟨← target.pattern, none, span⟩
  | [target, init] => do
    let target ← target.pattern
    let init ← init.expr
    return .declarator ⟨target, some init, span⟩
  | _ => unexpected span "a variable declarator"

/-- A declarator; a constant needs a value. -/
def checkedDeclarator (kind : DeclKind) (p : Part) : Build Declarator := do
  match ← p.piece with
  | .declarator d =>
    if kind = .const ∧ d.init.isNone then .error ⟨.constWithoutValue, d.span⟩ else return d
  | _ => unexpected p.span "a variable declarator"

def variableDeclaration (span : Span) : List Part → Build Piece
  | kind :: rest => do
    let kind ← kind.declKind
    return .declaration ⟨kind, ← each (checkedDeclarator kind) rest, span⟩
  | [] => unexpected span "a declaration"

def Part.declaration (p : Part) : Build Declaration := do
  match ← p.piece with
  | .declaration d => return d
  | _ => unexpected p.span "a declaration"

def variableStatement (span : Span) : List Part → Build Piece
  | [p] => return .stmt (.declaration span (← p.declaration))
  | _ => unexpected span "a statement"

def ifStatement (span : Span) : List Part → Build Piece
  | [_, test, yes] => do
    let test ← test.expr
    let yes ← yes.stmt
    return .stmt (.if_ span test yes none)
  | [_, test, yes, _, no] => do
    let test ← test.expr
    let yes ← yes.stmt
    let no ← no.stmt
    return .stmt (.if_ span test yes (some no))
  | _ => unexpected span "a statement"

def forInit (span : Span) : List Part → Build Piece
  | [p] => do
    match ← p.piece with
    | .declaration d => return .forInit (.declaration d)
    | _ => return .forInit (.expression (← p.expr))
  | _ => unexpected span "an expression"

def forTest (span : Span) : List Part → Build Piece
  | [p] => return .forTest (← p.expr)
  | _ => unexpected span "an expression"

def forUpdate (span : Span) : List Part → Build Piece
  | [p] => return .forUpdate (← p.expr)
  | _ => unexpected span "an expression"

/-- The clauses of a counting loop in the order they stand in, and its body. -/
def forClauses (span : Span) (init : ForInit) (test update : Option Expr) :
    List Part → Build Piece
  | [] => unexpected span "a statement"
  | p :: rest => do
    match ← p.piece with
    | .forInit init => forClauses span init test update rest
    | .forTest e => forClauses span init (some e) update rest
    | .forUpdate e => forClauses span init test (some e) rest
    | _ =>
      let body ← p.stmt
      return .stmt (.for_ span init test update body)

def forStatement (span : Span) (parts : List Part) : Build Piece :=
  forClauses span .nothing none none (parts.drop 1)

def forDeclaration (span : Span) : List Part → Build Piece
  | [kind, target] => do
    let kind ← kind.declKind
    let target ← target.pattern
    return .eachTarget (some kind) target
  | _ => unexpected span "a declaration"

def forEachLeft (span : Span) : List Part → Build Piece
  | [p] => do
    match ← p.piece with
    | .eachTarget kind target => return .eachTarget kind target
    | _ => return .eachTarget none (← toPattern (← p.expr))
  | _ => unexpected span "a binding pattern"

def forEachStatement (span : Span) : List Part → Build Piece
  | [_, left, word, subject, body] => do
    match ← left.piece with
    | .eachTarget kind target =>
      let mode : EachMode := if word.rule = .keyword .of_ then .elements else .keys
      let subject ← subject.expr
      let body ← body.stmt
      return .stmt (.forEach span mode kind target subject body)
    | _ => unexpected left.span "a binding pattern"
  | _ => unexpected span "a statement"

def whileStatement (span : Span) : List Part → Build Piece
  | [_, test, body] => do
    let test ← test.expr
    let body ← body.stmt
    return .stmt (.while_ span test body)
  | _ => unexpected span "a statement"

def doWhileStatement (span : Span) : List Part → Build Piece
  | [_, body, _, test] => do
    let body ← body.stmt
    let test ← test.expr
    return .stmt (.doWhile span body test)
  | _ => unexpected span "a statement"

def returnStatement (span : Span) : List Part → Build Piece
  | [_] => return .stmt (.return_ span none)
  | [_, value] => return .stmt (.return_ span (some (← value.expr)))
  | _ => unexpected span "a statement"

def throwStatement (span : Span) : List Part → Build Piece
  | [_, value] => return .stmt (.throw_ span (← value.expr))
  | _ => unexpected span "a statement"

def catchClause (span : Span) : List Part → Build Piece
  | [_, body] => return .handler (.catch_ span none (← body.block))
  | [_, param, body] => do
    let param ← param.pattern
    let body ← body.block
    return .handler (.catch_ span (some param) body)
  | _ => unexpected span "a catch clause"

def finallyClause (span : Span) : List Part → Build Piece
  | [_, body] => return .finalizer (← body.block)
  | _ => unexpected span "a finally clause"

/-- The clauses after the block of a try statement. -/
def tryClauses (handler : Handler) (finalizer : Option Block) :
    List Part → Build (Handler × Option Block)
  | [] => .ok (handler, finalizer)
  | p :: rest => do
    match ← p.piece with
    | .handler h => tryClauses h finalizer rest
    | .finalizer b => tryClauses handler (some b) rest
    | _ => unexpected p.span "a catch clause"

/-- A try statement needs a clause. -/
def tryStatement (span : Span) : List Part → Build Piece
  | _ :: block :: clauses => do
    let block ← block.block
    let (handler, finalizer) ← tryClauses .nothing none clauses
    match handler, finalizer with
    | .nothing, none => .error ⟨.lonelyTry, span⟩
    | _, _ => return .stmt (.try_ span block handler finalizer)
  | _ => unexpected span "a statement"

def switchCase (span : Span) : List Part → Build Piece
  | ⟨.keyword .case_, _, _⟩ :: test :: rest => do
    let test ← test.expr
    return .case ⟨some test, ← each Part.stmt rest, span⟩
  | _ :: rest => return .case ⟨none, ← each Part.stmt rest, span⟩
  | [] => unexpected span "a case clause"

def Part.case (p : Part) : Build Case := do
  match ← p.piece with
  | .case c => return c
  | _ => unexpected p.span "a case clause"

def switchStatement (span : Span) : List Part → Build Piece
  | _ :: subject :: cases => do
    let subject ← subject.expr
    return .stmt (.switch span subject (← each Part.case cases))
  | _ => unexpected span "a statement"

def expressionStatement (span : Span) : List Part → Build Piece
  | [p] => return .stmt (.expression span (← p.expr))
  | _ => unexpected span "a statement"

/-- The statements of a program, without the end of the input. -/
def program (parts : List Part) : Build Piece :=
  return .program (← each Part.stmt (parts.filter (·.rule != .endOfInput)))

end Scriptlet.Tree
