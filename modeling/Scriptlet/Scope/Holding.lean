import Scriptlet.Scope.Arena
import Scriptlet.Scope.Reach

/-!
What refers to scopes and to containers.
-/

namespace Scriptlet

/-- What is held from outside of an arena: handles, told by the scopes that have them, and
values. -/
structure Holders where
  scopes : List ScopeId := []
  values : List Value := []

/-- Something that can refer to scopes, or be referred to. -/
inductive Holding where
  | scope (id : ScopeId)
  | array (ref : ArrayRef)
  | object (ref : ObjectRef)
  | function (ref : FunctionRef)
  deriving DecidableEq, Repr

namespace Holding

def ofValue? : Value → Option Holding
  | .array r => some (.array r)
  | .object r => some (.object r)
  | .function r => some (.function r)
  | _ => none

def ofValues (vs : List Value) : List Holding :=
  vs.filterMap ofValue?

end Holding

namespace Heap

/-- The handle of the scope that a function was made in. -/
def handleOf? (f : FunctionObject) : Option Handle :=
  match f.callable with
  | .closure _ handle _ => some handle
  | .native _ _ => none

/-- The scope that a function was made in. -/
def scopeOf? (f : FunctionObject) : Option ScopeId :=
  (handleOf? f).map Handle.scope

/-- The values that a function keeps for its calls. -/
def keptBy (f : FunctionObject) : List Value :=
  match f.callable with
  | .native _ (.bound target receiver leading) => .function target :: receiver :: leading
  | .native _ (.error prototype) => [.object prototype]
  | _ => []

/-- The containers that a container refers to. -/
def contents (h : Heap) : Holding → List Holding
  | .scope _ => []
  | .array r => Holding.ofValues (h.elements r).toList
  | .object r =>
    let o := h.object r
    Holding.ofValues o.props.values ++ (o.prototype.map .object).toList
  | .function r =>
    match h.function? r with
    | none => []
    | some f => Holding.ofValues f.props.values ++ Holding.ofValues (keptBy f)

/-- Every container. -/
def holdings (h : Heap) : List Holding :=
  (List.range h.arrays.size).map (fun i => .array ⟨i⟩) ++
    (List.range h.objects.size).map (fun i => .object ⟨i⟩) ++
    (List.range h.functions.size).map (fun i => .function ⟨i⟩)

end Heap

namespace Arena

def ids (a : Arena) : List ScopeId :=
  (List.range a.records.size).map ScopeId.mk

def boundValues (r : Record) : List Value :=
  r.bindings.values.map (·.value)

def parentOf (a : Arena) (id : ScopeId) : List Holding :=
  ((a.record id).parent.map .scope).toList

/-- The scope that a container refers to, if its handle is one of the arena's. -/
def home (a : Arena) (h : Heap) : Holding → List Holding
  | .function r =>
    match (h.function? r).bind Heap.handleOf? with
    | some handle => if handle.realm? = some a.realm then [.scope handle.scope] else []
    | none => []
  | _ => []

def runningIds (a : Arena) : List ScopeId :=
  a.ids.filter fun id => (a.record id).phase = .running

def holdings (a : Arena) (h : Heap) : List Holding :=
  a.ids.map .scope ++ h.holdings

/-- What leads to the scopes and containers that have to stay: running scopes and what is held
outside. -/
def roots (a : Arena) (held : Holders) : List Holding :=
  (a.runningIds ++ held.scopes).map .scope ++ Holding.ofValues held.values

/-- What a scope or a container refers to. -/
def references (a : Arena) (h : Heap) : Holding → List Holding
  | .scope s => a.parentOf s ++ Holding.ofValues (boundValues (a.record s))
  | other => h.contents other ++ a.home h other

/-- The scopes and containers that are held. -/
def retained (a : Arena) (h : Heap) (held : Holders) : List Holding :=
  reachable (a.references h) (a.holdings h) (a.roots held)

end Arena

end Scriptlet
