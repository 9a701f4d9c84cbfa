import Scriptlet.Proofs.Eval.Monad
import Scriptlet.Proofs.Eval.Whole
import Scriptlet.Proofs.Layout.Part
import Scriptlet.Proofs.Tree.Shape

/-!
Where faults are placed.

A fault gets the span of the first construct that it passes. All constructs that a run of a program
meets stand in the text of that program, those of called functions included. Main statement: every
fault that leaves a program has a place in its text.
-/

namespace Scriptlet

open Eval
open Construct (Formed below_part)

variable {text : String}

/-- Faults are placed at constructs of the text. -/
theorem Node.contains_span {n : Node} {span : Span} (member : span ∈ n.spans) :
    ∃ c, n.construct.Contains c ∧ c.span = span := by
  unfold Node.spans at member
  split at member
  · simp only [List.mem_cons, List.not_mem_nil, or_false] at member
    rcases member with rfl | rfl
    · exact ⟨_, .refl _, rfl⟩
    · exact ⟨.name _, (below_part (List.mem_singleton_self _)).contains, rfl⟩
  · simp only [List.mem_cons, List.not_mem_nil, or_false] at member
    rcases member with rfl | rfl
    · exact ⟨_, .refl _, rfl⟩
    · exact ⟨.name _, (below_part (List.mem_singleton_self _)).contains, rfl⟩
  · obtain rfl := List.mem_singleton.1 member
    exact ⟨_, .refl _, rfl⟩
  · obtain rfl := List.mem_singleton.1 member
    exact ⟨_, .refl _, rfl⟩
  · obtain rfl := List.mem_singleton.1 member
    exact ⟨_, .refl _, rfl⟩
  · cases member

/-! ### Faults -/

/-- A fault of a running program, whose place is in the text if it has one. -/
structure Fault.Placed (text : String) (f : Fault) : Prop where
  running : ∀ e, f.cause ≠ .parse e
  inside : ∀ span ∈ f.span, span.Inside text

theorem Fault.Placed.located {f : Fault} {span : Span} (placed : f.Placed text)
    (inside : span.Inside text) : (f.located span).Placed text := by
  refine ⟨fun e => ?_, ?_⟩
  · rw [f.cause_located]
    exact placed.running e
  · unfold Fault.located
    split
    · exact placed.inside
    · exact placed.inside
    · rintro _ ⟨⟩
      exact inside

/-- A fault that has passed a construct has a place. -/
theorem Fault.isSome_span_located {f : Fault} (span : Span)
    (running : ∀ e, (f.located span).cause ≠ .parse e) : (f.located span).span.isSome = true := by
  rw [f.cause_located] at running
  unfold Fault.located
  split
  · exact absurd ‹_› (running _)
  · simp [*]
  · rfl

/-- All that is met stands in a text, and all faults have their places in it. -/
def location (text : String) : Contract where
  sound s := ∀ fn η realm, s.heap.Closure fn η realm → (Construct.function fn).Formed text
  live _ _ := True
  kept _ _ := True
  fine n := n.construct.Formed text
  stops _ := False
  cut _ := False
  raised f := f.Placed text

instance : (location text).Complete :=
  ⟨fun _ => id, fun _ => id, id⟩

instance : (location text).Indifferent :=
  ⟨fun _ => rfl⟩

instance : (location text).Lawful := by
  refine .of_closures (fun _ => .rfl) (fun _ _ => trivial) (fun _ _ => trivial) ?child
    (fun _ absurd => absurd.elim) ?scripted ?located ?stuck
  case child =>
    intro n formed _ m member
    exact Formed.contains formed (Node.below_child member).contains
  case scripted =>
    intro c kind
    refine ⟨fun e same => kind ?_, nofun⟩
    rw [show c = .parse e from same]
    rfl
  case located =>
    rintro f span ⟨n, formed, member⟩ placed
    obtain ⟨c, contains, rfl⟩ := Node.contains_span member
    exact placed.located (Formed.contains formed contains).within.inside
  case stuck => exact fun _ _ _ => .inr fun label => ⟨nofun, nofun⟩

/-! ### Faults with a place -/

namespace Eval

variable {α β : Type}

/-- A computation whose faults have places, those of refused texts apart. -/
structure Locates (m : Eval α) : Prop where
  fault : ∀ s f t, m s = .fault f t → (∀ e, f.cause ≠ .parse e) → f.span.isSome = true

namespace Locates

theorem pure (a : α) : Locates (Pure.pure a : Eval α) := by
  constructor
  intro s f t failed
  cases failed

theorem exhausted : Locates (Eval.exhausted : Eval α) := by
  constructor
  intro s f t failed
  cases failed

theorem bind {m : Eval α} {next : α → Eval β} (first : Locates m) (then_ : ∀ a, Locates (next a)) :
    Locates (m >>= next) := by
  constructor
  intro s f t failed
  rcases bind_fault failed with failed | ⟨a, u, -, failed⟩
  · exact first.fault s f t failed
  · exact (then_ a).fault u f t failed

theorem located (span : Span) (m : Eval α) : Locates (Eval.located span m) := by
  constructor
  intro s f t failed
  unfold Eval.located at failed
  split at failed
  · cases failed
  · cases failed
    exact Fault.isSome_span_located span
  · cases failed

end Locates

theorem locates_closure (fn : Function) (env : ScopeId) (name : Option String) :
    Locates (closure fn env name) := by
  constructor
  intro s f t failed
  cases failed

theorem locates_hoistFunctions (env : ScopeId) (body : List Stmt) :
    Locates (hoistFunctions env body) := by
  induction body with
  | nil => exact .pure _
  | cons st rest ih =>
    cases st with
    | function span fn =>
      unfold hoistFunctions
      split
      · exact .bind (locates_closure ..) fun _ => .bind (.located ..) fun _ => ih
      · exact ih
    | _ => exact ih

theorem locates_sequence {r : Recursion} (each : ∀ st env, Locates (r.stmt st env)) (env : ScopeId)
    (last : Value) (body : List Stmt) : Locates (sequence r env last body) := by
  induction body generalizing last with
  | nil => exact .pure _
  | cons st rest ih =>
    refine .bind (each st env) fun c => ?_
    cases c with
    | normal v => exact ih _
    | break_ | continue_ | return_ => exact .pure _

/-- Whatever happens in a statement, its faults get a place when they leave it, at the latest. -/
theorem locates_stmt (fuel : Nat) (st : Stmt) (env : ScopeId) :
    Locates ((recursion fuel).stmt st env) := by
  cases fuel with
  | zero => exact .exhausted
  | succ fuel => exact .located ..

theorem locates_program (fuel : Nat) (p : Program) : Locates (program fuel p) := by
  refine .bind (.bind (locates_hoistFunctions ..) fun _ => ?_) fun c => ?_
  · exact locates_sequence (locates_stmt fuel) ..
  · cases c with
    | normal | return_ | break_ | continue_ => exact .pure _

/-- A fault that leaves a program has a place in its text. -/
theorem program_fault {fuel : Nat} {p : Program} {s t : State} {f : Fault}
    (formed : (Construct.program p).Formed text)
    (closures : ∀ fn η realm, s.heap.Closure fn η realm → (Construct.function fn).Formed text)
    (failed : program fuel p s = .fault f t) :
    (∀ e, f.cause ≠ .parse e) ∧ ∃ span, f.span = some span ∧ span.Inside text := by
  have starts : (location text).Starts (.program p) s := by
    refine ⟨closures, fun _ _ => trivial, fun n member => ?_⟩
    obtain ⟨st, there, rfl⟩ := List.mem_map.1 member
    exact formed.parts (by simp [Construct.parts, Construct.rows, Node.construct, there])
  have ends := Contract.ends_run fuel (.program p) starts
  have ran : (Task.program p).run fuel s = .fault f t := failed
  rw [ran] at ends
  -- the place that there may be is in the text, and there is one
  have placed : f.Placed text := ends.2.2.1
  have some_ := (locates_program fuel p).fault s f t failed placed.running
  obtain ⟨span, there⟩ := Option.isSome_iff_exists.1 some_
  exact ⟨placed.running, span, there, placed.inside span there⟩

end Eval

end Scriptlet
