import Scriptlet.Scope.Holding

/-!
Finding the scopes that only refer to each other by counting references.

Records and containers know how many references there are to them, but not where these come from. So
the references are counted that lead there from the released records: if there are fewer of them,
then something else refers to the record or container, too, and whatever it leads to has to stay.
-/

namespace Scriptlet

/-- What records and containers know of the references to them. -/
structure Counts where
  /-- How many references there are to a container, or to the handle of a scope. -/
  strong : Holding → Nat
  /-- Whether the record that a function was made in still has the handle that the function refers
  to. -/
  current : FunctionRef → Bool

/-- How far a walk along references has come. -/
structure Walk where
  /-- What was met, the last one first. -/
  nodes : List Holding := []
  /-- How many references to a node the walk has come along. -/
  internal : Holding → Nat := fun _ => 0
  /-- The references out of a node that the walk has come along. -/
  edges : Holding → List Holding := fun _ => []
  /-- What was met and is not gone through yet. -/
  pending : List Holding := []

namespace Walk

/-- Meets one of the nodes that there are. -/
def visit (all : List Holding) (w : Walk) (x : Holding) : Walk :=
  if x ∈ all ∧ x ∉ w.nodes then { w with nodes := x :: w.nodes, pending := x :: w.pending } else w

/-- Goes along a reference. -/
def follow (all : List Holding) (source : Holding) (w : Walk) (target : Holding) : Walk :=
  let w := w.visit all target
  { w with
    internal := fun x => if x = target then w.internal x + 1 else w.internal x
    edges := fun x => if x = source then w.edges x ++ [target] else w.edges x }

/-- Goes along all references out of a node. -/
def expand (next : Holding → List Holding) (all : List Holding) (w : Walk) (x : Holding) : Walk :=
  (next x).foldl (follow all x) w

/-- How much a walk may still have to do. -/
def ahead (all : List Holding) (w : Walk) : Nat :=
  2 * (all.filter (· ∉ w.nodes)).length + w.pending.length

theorem ahead_visit_le (all : List Holding) (w : Walk) (x : Holding) :
    (w.visit all x).ahead all ≤ w.ahead all := by
  unfold visit
  split
  · rename_i fresh
    have fewer : (all.filter (· ∉ x :: w.nodes)).length < (all.filter (· ∉ w.nodes)).length := by
      have both : all.filter (· ∉ x :: w.nodes) = (all.filter (· ∉ w.nodes)).filter (· ≠ x) := by
        rw [List.filter_filter]
        simp
      rw [both]
      refine List.length_filter_lt_length_iff_exists.2 ⟨x, ?_, by simp⟩
      simpa using fresh
    simp only [ahead, List.length_cons] at fewer ⊢
    omega
  · exact Nat.le_refl _

theorem ahead_expand_le (next : Holding → List Holding) (all : List Holding) (w : Walk)
    (x : Holding) :
    (w.expand next all x).ahead all ≤ w.ahead all := by
  unfold expand
  induction next x generalizing w with
  | nil => exact Nat.le_refl _
  | cons y rest ih => exact Nat.le_trans (ih _) (ahead_visit_le all w y)

/-- Goes through all that is pending. -/
def run (next : Holding → List Holding) (all : List Holding) (w : Walk) : Walk :=
  match _first : w.pending with
  | [] => w
  | x :: rest => run next all (({ w with pending := rest } : Walk).expand next all x)
termination_by w.ahead all
decreasing_by
  refine Nat.lt_of_le_of_lt (ahead_expand_le ..) ?_
  simp only [ahead, _first, List.length_cons]
  omega

/-- How many references to a node come from elsewhere. The walk itself holds the containers that it
has met. -/
def external (w : Walk) (c : Counts) (x : Holding) : Nat :=
  let held :=
    match x with
    | .scope _ => c.strong x
    | _ => (c.strong x + 1) - 1
  held - w.internal x

/-- What has to stay, looked for in the given order. -/
def live (w : Walk) (c : Counts) (order : List Holding → List Holding) : List Holding :=
  reachable w.edges w.nodes ((order w.nodes).filter fun x => decide (0 < w.external c x))

end Walk

namespace Arena

/-- The references that are counted. Only released records are gone through; others are running, and
stay anyway. -/
def counted (a : Arena) (h : Heap) (c : Counts) : Holding → List Holding
  | .scope id =>
    if id ∈ a.released then
      (if 0 < c.strong (.scope id) then a.parentOf id else []) ++
        Holding.ofValues (boundValues (a.record id))
    else []
  | .function r =>
    match h.function? r with
    | none => []
    | some f =>
      Holding.ofValues f.props.values ++
        (if c.current r then ((Heap.scopeOf? f).map .scope).toList else [])
  | other => h.contents other

/-- The walk from the released records, the earliest released first. -/
def survey (a : Arena) (h : Heap) (next : Holding → List Holding) : Walk :=
  let all := a.holdings h
  Walk.run next all (a.released.foldr (fun id w => w.visit all (.scope id)) {})

/-- Frees the released records that are not listed, the earliest released first. -/
def keep (a : Arena) (live : List Holding) : Arena :=
  let stays (id : ScopeId) : Bool := decide (.scope id ∈ live)
  let kept := a.released.filter stays
  let gone := a.released.filter fun id => !stays id
  let a := gone.foldr (fun id a => a.dispose id) a
  { a with released := kept, collectAt := max minCollectAt (2 * kept.length) }

/-- Frees the released records that do not have to stay by the counts. The references out of a node
are gone along as `next` lists them. -/
def collectBy (a : Arena) (h : Heap) (c : Counts) (next : Holding → List Holding)
    (order : List Holding → List Holding) : Arena :=
  a.keep ((a.survey h next).live c order)

end Arena

end Scriptlet
