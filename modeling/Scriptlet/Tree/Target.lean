import Scriptlet.ParseError
import Scriptlet.Tree.Basic

/-!
Expressions read as assignment targets.
-/

namespace Scriptlet.Tree

/-- The target of an update or of an assignment that also reads: a name or a member. -/
def simpleTarget : Expr → Except BuildError Pattern
  | .identifier span name => .ok (.identifier span name)
  | .member span object key => .ok (.member span object key)
  | e => .error ⟨.invalidTarget, e.span⟩

mutual

/-- The pattern that an expression to the left of `=` stands for. -/
def toPattern : Expr → Except BuildError Pattern
  | .identifier span name => .ok (.identifier span name)
  | .member span object key => .ok (.member span object key)
  | .array span items => (itemPatterns items).map (.array span ·)
  | .object span members => (memberPatterns members).map fun (ps, rest) => .object span ps rest
  | .assign span .plain target value => .ok (.withDefault span target value)
  | e => .error ⟨.invalidTarget, e.span⟩

/-- The elements of an array pattern; a spread has to be the last one. -/
def itemPatterns : List Item → Except BuildError (List (Option Pattern))
  | [] => .ok []
  | .hole :: rest => do
    let ps ← itemPatterns rest
    return none :: ps
  | .one e :: rest => do
    let p ← toPattern e
    let ps ← itemPatterns rest
    return some p :: ps
  | .spread e :: rest =>
    if rest.isEmpty then do
      let p ← toPattern e
      return [some (.rest e.span p)]
    else .error ⟨.restNotLast, e.span⟩

/-- The properties and the rest of an object pattern; a spread has to be the last member. -/
def memberPatterns : List Member → Except BuildError (List PatternProperty × Option Pattern)
  | [] => .ok ([], none)
  | .property key value :: rest => do
    let p ← toPattern value
    let (ps, r) ← memberPatterns rest
    return (⟨key, p⟩ :: ps, r)
  | .spread e :: rest =>
    if rest.isEmpty then do
      let p ← simpleTarget e
      return ([], some p)
    else .error ⟨.restNotLast, e.span⟩

end

end Scriptlet.Tree
