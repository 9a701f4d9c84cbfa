import Scriptlet.Scope.Census

/-!
Which retired scopes stay.

References are counted. A container is dropped once nothing refers to it. The handle of a scope is
there while its record runs, a function made in the scope is there, someone outside holds it, or the
handle of a scope below is there. A scope that ends with no reference to its handle left is freed at
once; the others are released, and looked through by the counts when there are many of them.
-/

namespace Scriptlet

/-- Drops containers that nothing refers to, over and over. `outer` is what is referred to from
elsewhere. -/
def shed (outer : List Holding) (contents : Holding → List Holding) :
    Nat → List Holding → List Holding
  | 0, all => all
  | fuel + 1, all =>
    let left := all.filter fun x => decide (x ∈ outer ++ all.flatMap contents)
    if left.length = all.length then all else shed outer contents fuel left

namespace Heap

/-- The handles that some of the containers refer to. -/
def handles (h : Heap) (living : List Holding) : List Handle :=
  living.filterMap fun
    | .function r => (h.function? r).bind handleOf?
    | _ => none

/-- A handle that a host has written down is that of the scope that has the slot. -/
def pin (a : Arena) (f : FunctionObject) : FunctionObject :=
  match f.callable with
  | .closure fn (.slot id) realm =>
    { f with callable := .closure fn ((a.record id).handle?.getD (.slot id)) realm }
  | _ => f

def pinned (h : Heap) (a : Arena) : Heap :=
  { h with functions := h.functions.map (pin a) }

end Heap

namespace Arena

/-! ### Counts -/

/-- The containers that bindings and values outside refer to. -/
def outer (a : Arena) (values : List Value) : List Holding :=
  Holding.ofValues values ++ a.records.toList.flatMap fun r => Holding.ofValues (boundValues r)

/-- The containers that were not dropped. -/
def living (a : Arena) (h : Heap) (values : List Value) : List Holding :=
  shed (a.outer values) h.contents h.holdings.length h.holdings

/-- The handles that runs, the given containers and holders outside refer to. -/
def handles (a : Arena) (h : Heap) (living : List Holding) (scopes : List ScopeId) : List Handle :=
  a.records.toList.filterMap Record.anchor? ++ h.handles living ++
    scopes.filterMap fun id => (a.record id).handle?

/-- Whether a handle is there. -/
def isAlive (a : Arena) (h : Heap) (living : List Holding) (scopes : List ScopeId)
    (x : Handle) : Bool :=
  (a.handles h living scopes).any fun y => decide (x ∈ y.chain)

/-- How many references there are to a handle: those of runs, of containers and from outside, and
those of the handles of scopes below that are there. -/
def handleCount (handles : List Handle) (x : Handle) : Nat :=
  handles.count x +
    ((handles.flatMap Handle.chain).filter fun y => decide (y.parent? = some x)).eraseDups.length

/-- What records and containers know of the references to them. -/
def counts (a : Arena) (h : Heap) (held : Holders) : Counts :=
  let living := a.living h held.values
  let handles := a.handles h living held.scopes
  let contents := a.outer held.values ++ living.flatMap h.contents
  { strong := fun
      | .scope id => ((a.record id).handle?.map (handleCount handles)).getD 0
      | x => contents.count x
    current := fun r =>
      match (h.function? r).bind Heap.handleOf? with
      | some handle => decide ((a.record handle.scope).handle? = some handle)
      | none => false }

/-! ### Reclaiming -/

/-- Looks through the released records by the counts of references. -/
def collect (a : Arena) (h : Heap) (held : Holders) : Arena :=
  let h := h.pinned a
  let c := a.counts h held
  a.collectBy h c (a.counted h c) id

/-- Ends a running scope. Its record is freed at once if there is no reference to its handle;
otherwise it is released, and the released records are looked through once there are many. -/
def release (a : Arena) (h : Heap) (held : Holders) (id : ScopeId) : Arena :=
  if id == root || (a.record id).phase != .running then a
  else
    let loose := a.loosen id
    if (loose.counts (h.pinned a) held).strong (.scope id) = 0 then loose.dispose id
    else
      let a := a.retire id
      if a.released.length < a.collectAt then a else a.collect h held

end Arena

end Scriptlet
