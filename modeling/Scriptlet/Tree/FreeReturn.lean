import Scriptlet.Tree.Basic

/-!
Return statements that stand in no function.
-/

namespace Scriptlet

mutual

/-- The place of the first return statement that is in no function of the statement. -/
def Stmt.freeReturn? : Stmt → Option Span
  | .return_ span _ => some span
  | .block _ b => b.freeReturn?
  | .if_ _ _ yes no => yes.freeReturn?.or (optionFreeReturn? no)
  | .for_ _ _ _ _ body => body.freeReturn?
  | .forEach _ _ _ _ _ body => body.freeReturn?
  | .while_ _ _ body => body.freeReturn?
  | .doWhile _ body _ => body.freeReturn?
  | .try_ _ block handler finalizer =>
    block.freeReturn?.or (handler.freeReturn?.or (blockFreeReturn? finalizer))
  | .switch _ _ cases => casesFreeReturn? cases
  | .expression _ _ | .declaration _ _ | .function _ _ | .empty _ | .break_ _ | .continue_ _
  | .throw_ _ _ => none

def optionFreeReturn? : Option Stmt → Option Span
  | none => none
  | some s => s.freeReturn?

def Block.freeReturn? : Block → Option Span
  | ⟨body, _⟩ => firstFreeReturn? body

def blockFreeReturn? : Option Block → Option Span
  | none => none
  | some b => b.freeReturn?

def Handler.freeReturn? : Handler → Option Span
  | .nothing => none
  | .catch_ _ _ body => body.freeReturn?

def Case.freeReturn? : Case → Option Span
  | ⟨_, body, _⟩ => firstFreeReturn? body

def casesFreeReturn? : List Case → Option Span
  | [] => none
  | c :: rest => c.freeReturn?.or (casesFreeReturn? rest)

/-- The first one in a list of statements. -/
def firstFreeReturn? : List Stmt → Option Span
  | [] => none
  | s :: rest => s.freeReturn?.or (firstFreeReturn? rest)

end

end Scriptlet
