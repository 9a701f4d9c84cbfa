import Scriptlet.Tree.Piece

/-!
Building functions and the patterns that declare names.
-/

namespace Scriptlet.Tree

open Grammar (Rule Keyword)

def isRest : Pattern → Bool
  | .rest _ _ => true
  | _ => false

/-- Only the last of the patterns may be a rest. -/
def checkRestLast : List Pattern → Build Unit
  | [] => .ok ()
  | [_] => .ok ()
  | p :: rest => if isRest p then .error ⟨.restNotLast, p.span⟩ else checkRestLast rest

def bindingElement (span : Span) : List Part → Build Piece
  | [target] => return .pattern (← target.pattern)
  | [target, value] => do
    let target ← target.pattern
    let value ← value.expr
    return .pattern (.withDefault span target value)
  | _ => unexpected span "a binding pattern"

def restElement (span : Span) : List Part → Build Piece
  | [target] => return .pattern (.rest span (← target.pattern))
  | _ => unexpected span "a binding pattern"

def arrayBindingSlot (span : Span) : List Part → Build Piece
  | [] => return .bindingSlot none
  | [p] => return .bindingSlot (some (← p.pattern))
  | _ => unexpected span "a binding pattern"

def slotPattern (p : Part) : Build (Option Pattern) := do
  match ← p.piece with
  | .bindingSlot q => return q
  | _ => unexpected p.span "a binding pattern"

/-- A comma at the end adds no elision. -/
def dropLastElision (ps : List (Option Pattern)) : List (Option Pattern) :=
  match ps.getLast? with
  | some none => ps.dropLast
  | _ => ps

def arrayBinding (span : Span) (parts : List Part) : Build Piece := do
  let slots ← each slotPattern parts
  let elements := dropLastElision slots
  checkRestLast (elements.filterMap id)
  return .pattern (.array span elements)

def objectBindingProperty (span : Span) : List Part → Build Piece
  | [key, value] => do
    let key ← key.key
    let value ← value.pattern
    return .bindingProperty ⟨key, value⟩
  | _ => unexpected span "a binding pattern"

/-- The property that a name, or a name with a default, stands for. -/
def shorthandProperty (span : Span) (p : Pattern) : Build PatternProperty :=
  match p with
  | .identifier _ name => .ok ⟨.static name.text, p⟩
  | .withDefault _ (.identifier _ name) _ => .ok ⟨.static name.text, p⟩
  | _ => unexpected span "a property name"

/-- The members of an object pattern. Nothing may follow the rest, which has to be a name. -/
def bindingMembers : List Part → Build (List PatternProperty × Option Pattern)
  | [] => .ok ([], none)
  | p :: rest => do
    match ← p.piece with
    | .bindingProperty q =>
      let (qs, r) ← bindingMembers rest
      return (q :: qs, r)
    | _ =>
      match ← p.pattern with
      | .rest _ (.identifier s name) =>
        match rest with
        | [] => return ([], some (.identifier s name))
        | next :: _ => .error ⟨.restNotLast, next.span⟩
      | .rest _ _ => .error ⟨.restNotLast, p.span⟩
      | target =>
        let q ← shorthandProperty p.span target
        let (qs, r) ← bindingMembers rest
        return (q :: qs, r)

def objectBinding (span : Span) (parts : List Part) : Build Piece := do
  let (properties, rest) ← bindingMembers parts
  return .pattern (.object span properties rest)

def parameters (parts : List Part) : Build Piece := do
  let params ← each Part.pattern parts
  checkRestLast params
  return .parameters params

def functionBlock (span : Span) (parts : List Part) : Build Piece :=
  return .block ⟨← each Part.stmt parts, span⟩

/-- The function after its keyword. -/
def function (kind : FunctionKind) (span : Span) : List Part → Build Function
  | [name, params, body] => do
    let name ← name.name
    let params ← params.parameters
    let body ← body.block
    return ⟨kind, some name, params, .block body, span⟩
  | [params, body] => do
    let params ← params.parameters
    let body ← body.block
    return ⟨kind, none, params, .block body, span⟩
  | _ => unexpected span "a function"

def functionDeclaration (span : Span) (parts : List Part) : Build Piece :=
  return .stmt (.function span (← function .declaration span (parts.drop 1)))

def functionExpression (span : Span) (parts : List Part) : Build Piece :=
  return .expr (.function span (← function .expression span (parts.drop 1)))

def arrowParameters (span : Span) : List Part → Build Piece
  | [p] => do
    match ← p.piece with
    | .parameters ps => return .parameters ps
    | _ => return .parameters [← p.pattern]
  | _ => unexpected span "a parameter list"

def arrowBody (span : Span) : List Part → Build Piece
  | [p] => do
    match ← p.piece with
    | .block b => return .functionBody (.block b)
    | _ => return .functionBody (.expression (← p.expr))
  | _ => unexpected span "a function body"

def arrowFunction (span : Span) : List Part → Build Piece
  | [params, body] => do
    let params ← params.parameters
    match ← body.piece with
    | .functionBody body => return .expr (.function span ⟨.arrow, none, params, body, span⟩)
    | _ => unexpected span "a function body"
  | _ => unexpected span "a function"

end Scriptlet.Tree
