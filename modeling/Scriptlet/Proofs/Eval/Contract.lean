import Scriptlet.Eval.Run
import Scriptlet.Proofs.Eval.Mention
import Scriptlet.Proofs.Eval.Node
import Scriptlet.Proofs.Scope.Clearing
import Scriptlet.Proofs.Scope.Edit

/-!
Contracts for the evaluator.

A contract says what holds of the states between constructs, how the state may change while one
runs, which objects can be known on a heap, whether arrays have a limit, and which faults a run may
end with. Its laws are about the few steps by which the evaluator changes a state: a step on the
heap, an edit of bindings, a new closure, a scope that opens and closes, a call.

Computations are compared in pairs, as the evaluator is written against the record that evaluates
what is nested: a pair that satisfies a contract gives equal outcomes, whichever of two such records
is used, in all states that the contract allows.
-/

namespace Scriptlet

open Mentions (mentions)

/-- A step of a script on the heap, which stores known objects only; closures are made otherwise. -/
inductive Heap.Step (known : Heap → Knowledge) (h : Heap) : Heap → Prop where
  | newArray (elements : Array Value) : Known (known h) elements →
      Step known h (h.newArray elements).2
  | newObject (o : Object) : Known (known h) o → Step known h (h.newObject o).2
  | newNative (name : String) (arity : Nat) (op : Native) : Known (known h) op →
      Step known h (h.newFunction { name := name, callable := .native arity op }).2
  | setArray (r : ArrayRef) (f : Array Value → Array Value) :
      (∀ xs, Known ((known h).plus xs) (f xs)) → Step known h (h.modifyArray r f)
  | setObject (r : ObjectRef) (f : Table Value → Table Value) :
      (∀ t, Known ((known h).plus t) (f t)) →
      Step known h (h.modifyObject r fun o => { o with props := f o.props })
  | setFunction (r : FunctionRef) (f : Table Value → Table Value) :
      (∀ t, Known ((known h).plus t) (f t)) →
      Step known h (h.modifyFunction r fun g => { g with props := f g.props })

/-- No array on the heap is longer than arrays can be. -/
def Heap.Within (h : Heap) : Prop :=
  ∀ xs ∈ h.arrays, xs.size ≤ Value.maxArrayLength

/-- A result leaves the heap within the limits. -/
def Outcome.Lands {α : Type} (o : Outcome α) : Prop :=
  ∀ a t, o = .ok a t → t.heap.Within

/-- There is a closure on the heap. -/
def Heap.Closure (h : Heap) (fn : Function) (handle : Handle) (realm : Nat) : Prop :=
  ∃ f ∈ h.functions, f.callable = .closure fn handle realm

/-- There are no closures but those of an earlier heap. -/
def Heap.Lends (h h' : Heap) : Prop :=
  ∀ fn handle realm, h'.Closure fn handle realm → h.Closure fn handle realm

/-- A reference leads to a closure. -/
def Heap.ClosureAt (h : Heap) (r : FunctionRef) (fn : Function) (handle : Handle)
    (realm : Nat) : Prop :=
  ∃ f, h.function? r = some f ∧ f.callable = .closure fn handle realm

/-- The closures are those of an earlier heap, under the same references. -/
def Heap.SameClosures (h h' : Heap) : Prop :=
  ∀ r fn handle realm, h'.ClosureAt r fn handle realm ↔ h.ClosureAt r fn handle realm

namespace Heap

variable {h : Heap} {r : FunctionRef} {fn : Function} {handle : Handle} {realm : Nat}

theorem closure_of_function? {f : FunctionObject} (there : h.function? r = some f)
    (callable : f.callable = .closure fn handle realm) : h.Closure fn handle realm :=
  ⟨f, Array.mem_of_getElem? there, callable⟩

theorem closure_newFunction {f : FunctionObject} :
    (h.newFunction f).2.Closure fn handle realm ↔
      h.Closure fn handle realm ∨ f.callable = .closure fn handle realm := by
  simp only [Closure, newFunction, Array.mem_push]
  constructor
  · rintro ⟨g, there | rfl, callable⟩
    · exact .inl ⟨g, there, callable⟩
    · exact .inr callable
  · rintro (⟨g, there, callable⟩ | callable)
    · exact ⟨g, .inl there, callable⟩
    · exact ⟨f, .inr rfl, callable⟩

theorem ClosureAt.closure (there : h.ClosureAt r fn handle realm) : h.Closure fn handle realm :=
  let ⟨_, found, callable⟩ := there
  closure_of_function? found callable

theorem Closure.closureAt (there : h.Closure fn handle realm) :
    ∃ r, h.ClosureAt r fn handle realm := by
  obtain ⟨f, member, callable⟩ := there
  obtain ⟨i, inside, rfl⟩ := Array.getElem_of_mem member
  exact ⟨⟨i⟩, _, Array.getElem?_eq_getElem inside, callable⟩

/-- The place of a new function. -/
def nextFunction (h : Heap) : FunctionRef :=
  ⟨h.functions.size⟩

theorem not_closureAt_nextFunction : ¬h.ClosureAt h.nextFunction fn handle realm := by
  rintro ⟨f, found, -⟩
  simp [function?, nextFunction] at found

theorem closureAt_newFunction {f : FunctionObject} :
    (h.newFunction f).2.ClosureAt r fn handle realm ↔
      h.ClosureAt r fn handle realm ∨ r = h.nextFunction ∧
      f.callable = .closure fn handle realm := by
  by_cases new : r = h.nextFunction
  · subst new
    simp only [not_closureAt_nextFunction, false_or, true_and]
    simp [ClosureAt, function?, newFunction, nextFunction]
  · have index : r.index ≠ h.functions.size := fun same => new (congrArg FunctionRef.mk same)
    simp [ClosureAt, function?, newFunction, Array.getElem?_push, index, new]

namespace SameClosures

variable {h' h'' : Heap}

theorem refl (h : Heap) : h.SameClosures h :=
  fun _ _ _ _ => .rfl

theorem trans (first : h.SameClosures h') (second : h'.SameClosures h'') : h.SameClosures h'' :=
  fun r fn handle realm => (second r fn handle realm).trans (first r fn handle realm)

theorem lends (same : h.SameClosures h') : h.Lends h' := by
  intro fn handle realm there
  obtain ⟨r, at_⟩ := there.closureAt
  exact ((same r fn handle realm).1 at_).closure

theorem newNative {f : FunctionObject} {arity : Nat} {op : Native}
    (native : f.callable = .native arity op) : h.SameClosures (h.newFunction f).2 := by
  intro r fn handle realm
  simp [closureAt_newFunction, native]

end SameClosures

theorem Step.sameClosures {known : Heap → Knowledge} {h' : Heap} (step : h.Step known h') :
    h.SameClosures h' := by
  cases step with
  | newArray | newObject | setArray | setObject => exact .refl h
  | newNative name arity op _ => exact .newNative rfl
  | setFunction r f _ =>
    intro s fn handle realm
    simp only [ClosureAt, function?, modifyFunction, Array.getElem?_modify]
    split
    · cases h.functions[s.index]? <;> simp
    · rfl

theorem Step.lends {known : Heap → Knowledge} {h' : Heap} (step : h.Step known h') : h.Lends h' :=
  step.sameClosures.lends

namespace Within

theorem newArray (within : h.Within) {elements : Array Value}
    (sized : elements.size ≤ Value.maxArrayLength) : (h.newArray elements).2.Within := by
  intro xs member
  rcases Array.mem_push.1 member with member | rfl
  · exact within xs member
  · exact sized

theorem of_newArray {elements : Array Value} (within : (h.newArray elements).2.Within) :
    h.Within ∧ elements.size ≤ Value.maxArrayLength :=
  ⟨fun xs member => within xs (Array.mem_push_of_mem _ member), within _ Array.mem_push_self⟩

theorem modifyArray (within : h.Within) {r : ArrayRef} {f : Array Value → Array Value}
    (sized : ∀ xs, xs.size ≤ Value.maxArrayLength → (f xs).size ≤ Value.maxArrayLength) :
    (h.modifyArray r f).Within := by
  intro xs member
  obtain ⟨i, inside, rfl⟩ := Array.getElem_of_mem member
  simp only [Heap.modifyArray, Array.getElem_modify, Array.size_modify] at inside ⊢
  have before := within _ (Array.getElem_mem inside)
  split
  · exact sized _ before
  · exact before

theorem elements (within : h.Within) (r : ArrayRef) :
    (h.elements r).size ≤ Value.maxArrayLength := by
  unfold Heap.elements
  cases there : h.arrays[r.index]? with
  | none => exact Nat.zero_le _
  | some xs => exact within xs (Array.mem_of_getElem? there)

end Within

end Heap

namespace State

/-- The state with a scope open. -/
def opened (s : State) (kind : ScopeKind) (parent : ScopeId) : State :=
  { s with scopes := (s.scopes.push kind parent s.isAlive).2 }

/-- The state in the scope of a called function. -/
def called (s : State) (scope : ScopeId) : State :=
  State.opened { s with depth := s.depth + 1 } .function scope

/-- The state after the call of a function, the scope of which has ended. -/
def returned (s : State) : State :=
  { s with depth := s.depth - 1 }

/-- The state with a new closure. -/
def withClosure (s : State) (name : String) (fn : Function) (env : ScopeId) : State :=
  let captured := s.scopes.capture env s.isAlive
  { s with
    scopes := captured.2
    heap := (s.heap.newFunction { name := name, callable := .closure fn captured.1 s.realm.id }).2 }

/-- A closure of the realm that can be called. -/
structure Calls (s : State) (r : FunctionRef) (fn : Function) (η : Handle) : Prop where
  there : s.heap.ClosureAt r fn η s.realm.id
  shallow : s.depth < s.realm.maxDepth
  kept : r ∉ s.memory.lost

/-- What the end of a scope does where it is known what is referred to from elsewhere. -/
structure Closes (s : State) (id : ScopeId) (values : List Value) (t : State) : Prop where
  same : t =
    { s with scopes := s.scopes.release s.heap { values := values } id, memory := t.memory }
  /-- Nothing turns up that was lost. -/
  dropped : ∀ x ∈ s.memory.dropped, x ∉ s.scopes.living s.heap values
  lost : ∀ r ∈ s.memory.lost,
    .function r ∉ (s.scopes.loosen id).retained s.heap { values := values }
  /-- What is out of reach now is remembered. -/
  drops : ∀ x, x ∈ t.memory.dropped ↔ x ∈ s.heap.holdings ∧ x ∉ s.scopes.living s.heap values
  loses : ∀ r, r ∈ t.memory.lost ↔ .function r ∈ s.heap.holdings ∧
    .function r ∉ (s.scopes.loosen id).retained s.heap { values := values }

variable {s t : State} {id : ScopeId}

theorem closed_cases (closed : s.closed id = some t) :
    (s.realm.outside = none ∧ t = { s with scopes := s.scopes.retire id }) ∨
      s.realm.outside ≠ none ∧ ∃ values, s.Closes id values t := by
  cases known : s.realm.outside with
  | none =>
    simp only [State.closed, known, Option.some.injEq] at closed
    exact .inl ⟨rfl, closed.symm⟩
  | some outside =>
    refine .inr ⟨nofun, outside s.memory.ends, ?_⟩
    simp only [State.closed, known] at closed
    split at closed
    · rename_i nothing
      cases closed
      refine ⟨rfl, nothing.1, nothing.2, fun x => ?_, fun r => ?_⟩
      · simp
      · have listed : r ∈ (List.range s.heap.functions.size).map FunctionRef.mk ↔
            r.index < s.heap.functions.size := by
          simp only [List.mem_map, List.mem_range]
          exact ⟨fun ⟨_, inside, same⟩ => same ▸ inside, fun inside => ⟨r.index, inside, rfl⟩⟩
        simp [Heap.function_mem_holdings, listed]
    · cases closed

/-- The end of a scope only concerns the arena, and what is remembered of it. -/
theorem closed_eq (closed : s.closed id = some t) :
    t = { s with scopes := t.scopes, memory := t.memory } := by
  rcases closed_cases closed with ⟨-, same⟩ | ⟨-, values, closes⟩
  · rw [same]
  · rw [closes.same]

theorem heap_closed (closed : s.closed id = some t) : t.heap = s.heap := by
  rw [closed_eq closed]

/-- The end of a scope binds nothing and makes no handle. -/
theorem clears_closed (closed : s.closed id = some t) : s.scopes.Clears t.scopes := by
  rcases closed_cases closed with ⟨-, same⟩ | ⟨-, values, closes⟩
  · rw [same]
    exact .retire ..
  · rw [closes.same]
    exact .release ..

end State

structure Contract where
  /-- What holds of the states between constructs. -/
  sound : State → Prop
  /-- The scopes in which constructs can run. -/
  live : ScopeId → State → Prop
  /-- How a state may differ from an earlier one. -/
  kept : State → State → Prop
  /-- The objects that computations can know. -/
  known : Heap → Knowledge := fun _ => Set.univ
  /-- Whether no array may be longer than arrays can be. -/
  bounded : Prop := False
  /-- The parts of programs that may be met. -/
  fine : Node → Prop
  /-- The expressions that are given up on instead of being run. -/
  stops : Expr → Prop
  /-- The states with which a run may be cut short. -/
  cut : State → Prop
  raised : Fault → Prop

namespace Contract

/-- A part that is run when it is met. -/
def Runs (C : Contract) (n : Node) : Prop :=
  ∀ e, n = .expr e → ¬C.stops e

/-- The spans of the parts that may be met. -/
def Place (C : Contract) (span : Span) : Prop :=
  ∃ n, C.fine n ∧ span ∈ n.spans

/-- What the steps of the evaluator owe to a contract. -/
class Lawful (C : Contract) : Prop where
  refl : ∀ s, C.kept s s
  trans : ∀ s t u, C.kept s t → C.kept t u → C.kept s u
  live_kept : ∀ env s t, C.live env s → C.kept s t → C.live env t
  live_root : ∀ s, C.sound s → C.live Arena.root s
  known_kept : ∀ s t, C.kept s t → C.known s.heap ⊆ C.known t.heap
  /-- Whatever a state refers to can be known. -/
  known_stored : ∀ s, C.sound s → Known (C.known s.heap) s
  /-- Whatever there is can be known. -/
  known_there : ∀ (h : Heap) (r : ObjectRef), r.index < h.objects.size → r ∈ C.known h
  child : ∀ n, C.fine n → C.Runs n → ∀ m ∈ n.children, C.fine m
  /-- Only assignments are given up on. -/
  assigned : ∀ e, C.stops e → ∃ span op target value, e = .assign span op target value
  heap : ∀ s h, C.sound s → s.heap.Step C.known h → (C.bounded → h.Within) →
    C.sound { s with heap := h } ∧ C.kept s { s with heap := h }
  within : C.bounded → ∀ s, C.sound s → s.heap.Within := by exact fun absurd => False.elim absurd
  console : ∀ s lines, C.sound s →
    C.sound { s with console := lines } ∧ C.kept s { s with console := lines }
  edit : ∀ s a, C.sound s → s.scopes.Edit (Known (C.known s.heap)) a →
    C.sound { s with scopes := a } ∧ C.kept s { s with scopes := a }
  closure : ∀ s name fn env, C.sound s → C.live env s → C.fine (.function fn) →
    C.sound (s.withClosure name fn env) ∧ C.kept s (s.withClosure name fn env)
  opened : ∀ s env, C.sound s → C.live env s →
    C.sound (s.opened .block env) ∧ C.live s.scopes.nextSlot (s.opened .block env)
  closed : ∀ s env t u, C.sound s → C.live env s → C.sound t → C.kept (s.opened .block env) t →
    t.closed s.scopes.nextSlot = some u → C.sound u ∧ C.kept s u
  called : ∀ s r fn η, C.sound s → s.Calls r fn η →
    C.fine (.function fn) ∧ C.sound (s.called η.scope) ∧ C.live s.scopes.nextSlot (s.called η.scope)
  returned : ∀ s r fn η t u, C.sound s → s.Calls r fn η → C.sound t → C.kept (s.called η.scope) t →
    t.closed s.scopes.nextSlot = some u → C.sound u.returned ∧ C.kept s u.returned
  scripted : ∀ c : Cause, c.kind ≠ .internal → C.raised { cause := c }
  located : ∀ f span, C.Place span → C.raised f → C.raised (f.located span)
  /-- A part that is met and run has a rule, or the contract allows that there is none. -/
  stuck : ∀ n, C.fine n → C.Runs n → n.executable = true ∨
    ∀ label, C.raised { cause := .unsupported label }

/-- A contract under which everything can be known. -/
class Indifferent (C : Contract) : Prop where
  known : ∀ h, C.known h = Set.univ

instance known_of_indifferent {C : Contract} [indifferent : C.Indifferent] {α : Type} [Mentions α]
    (h : Heap) (a : α) : Known (C.known h) a :=
  ⟨(indifferent.known h).symm ▸ Set.subset_univ _⟩

/-- The laws of a contract that asks nothing of a state but that the functions on the heap may be
met. -/
theorem Lawful.of_closures {C : Contract} [indifferent : C.Indifferent]
    (sound : ∀ s, C.sound s ↔
      ∀ fn η realm, s.heap.Closure fn η realm → C.fine (.function fn))
    (live : ∀ env s, C.live env s) (kept : ∀ s t, C.kept s t)
    (child : ∀ n, C.fine n → C.Runs n → ∀ m ∈ n.children, C.fine m)
    (assigned : ∀ e, C.stops e → ∃ span op target value, e = .assign span op target value)
    (scripted : ∀ c : Cause, c.kind ≠ .internal → C.raised { cause := c })
    (located : ∀ f span, C.Place span → C.raised f → C.raised (f.located span))
    (stuck : ∀ n, C.fine n → C.Runs n → n.executable = true ∨
      ∀ label, C.raised { cause := .unsupported label })
    (unbounded : C.bounded → False := by exact id) : C.Lawful := by
  -- whatever leaves the heap as it is
  have same {s t : State} (here : C.sound s) (heap : t.heap = s.heap) : C.sound t := by
    rw [sound] at here ⊢
    rwa [heap]
  refine ⟨fun _ => kept _ _, fun _ _ _ _ _ => kept _ _, fun _ _ _ _ _ => live _ _,
    fun _ _ => live _ _, by
      simp [indifferent.known], fun _ _ => inferInstance, by
        simp [indifferent.known], child, assigned,
    ?heap, fun absurd => (unbounded absurd).elim, fun s _ here => ⟨same here rfl, kept _ _⟩,
    fun s _ here _ => ⟨same here rfl, kept _ _⟩, ?closure, fun s _ here _ =>
      ⟨same here rfl, live _ _⟩,
    fun _ _ _ _ _ _ here _ closed => ⟨same here (State.heap_closed closed), kept _ _⟩, ?called,
    fun _ _ _ _ _ _ _ _ here _ closed =>
      ⟨(sound _).2 (State.heap_closed closed ▸ (sound _).1 here), kept _ _⟩, scripted,
    located, stuck⟩
  case heap =>
    intro s h here step _
    refine ⟨(sound _).2 fun fn η realm there => ?_, kept _ _⟩
    exact (sound s).1 here fn η realm (step.lends fn η realm there)
  case closure =>
    intro s name fn env here _ fine
    refine ⟨(sound _).2 fun fn' η realm there => ?_, kept _ _⟩
    rcases Heap.closure_newFunction.1 there with there | made
    · exact (sound s).1 here fn' η realm there
    · cases made
      exact fine
  case called =>
    intro s r fn η here calls
    exact ⟨(sound s).1 here fn η s.realm.id calls.there.closure, same here rfl, live _ _⟩

section Place

variable {C : Contract}

theorem place_expr {e : Expr} (fine : C.fine (.expr e)) : C.Place e.span :=
  ⟨_, fine, Node.span_mem_spans_expr e⟩

theorem place_stmt {st : Stmt} (fine : C.fine (.stmt st)) : C.Place st.span :=
  ⟨_, fine, List.mem_cons_self⟩

theorem place_pattern {mode : BindMode} {p : Pattern} (fine : C.fine (.pattern mode p)) :
    C.Place p.span :=
  ⟨_, fine, Node.span_mem_spans_pattern mode p⟩

end Place

theorem runs_function {C : Contract} [lawful : C.Lawful] (span : Span) (fn : Function) :
    C.Runs (.expr (.function span fn)) := by
  rintro _ ⟨⟩ stops
  obtain ⟨_, _, _, _, same⟩ := lawful.assigned _ stops
  cases same

theorem runs_member {C : Contract} [lawful : C.Lawful] (span : Span) (object : Expr)
    (key : MemberKey) : C.Runs (.expr (.member span object key)) := by
  rintro _ ⟨⟩ stops
  obtain ⟨_, _, _, _, same⟩ := lawful.assigned _ stops
  cases same

/-- How a computation may end. -/
def Ends {α : Type} [Mentions α] (C : Contract) (s : State) (Q : α → Prop) : Outcome α → Prop
  | .ok a t => C.sound t ∧ C.kept s t ∧ Q a ∧ Known (C.known t.heap) a
  | .fault f t => C.sound t ∧ C.kept s t ∧ C.raised f ∧ Known (C.known t.heap) f
  | .exhausted _ => True

/-- An outcome of a run that was cut short, or else one that is as the contract says and the same as
another one. -/
inductive Agree {α : Type} [Mentions α] (C : Contract) (s : State) (Q : α → Prop) :
    Outcome α → Outcome α → Prop
  | cut (u : State) (o : Outcome α) (cut : C.cut u) : Agree C s Q (.exhausted u) o
  | same (o : Outcome α) (ends : C.Ends s Q o) : Agree C s Q o o

/-- Two computations with some knowledge that agree wherever a scope is live. -/
structure Sat {α : Type} [Mentions α] (C : Contract) (env : ScopeId) (k : Knowledge) (m m' : Eval α)
    (Q : α → Prop := fun _ => True) : Prop where
  intro ::
  run : ∀ s, C.sound s → C.live env s → k ⊆ C.known s.heap → C.Agree s Q (m s) (m' s)

variable {C : Contract} [lawful : C.Lawful] {env : ScopeId} {k : Knowledge} {α β : Type}
variable [Mentions α] [Mentions β]

omit lawful in
theorem Agree.cases {s : State} {Q : α → Prop} {o o' : Outcome α} (agree : C.Agree s Q o o') :
    (∃ u, C.cut u ∧ o = .exhausted u) ∨ (o' = o ∧ C.Ends s Q o) := by
  cases agree with
  | cut u _ cut => exact .inl ⟨u, cut, rfl⟩
  | same _ ends => exact .inr ⟨rfl, ends⟩

theorem Agree.trans {s t : State} {Q : α → Prop} {o o' : Outcome α} (kept : C.kept s t)
    (agree : C.Agree t Q o o') : C.Agree s Q o o' := by
  cases agree with
  | cut u _ cut => exact .cut u o' cut
  | same _ ends =>
    refine .same o ?_
    cases o with
    | ok a u => exact ⟨ends.1, lawful.trans _ _ _ kept ends.2.1, ends.2.2⟩
    | fault f u => exact ⟨ends.1, lawful.trans _ _ _ kept ends.2.1, ends.2.2⟩
    | exhausted u => trivial

omit lawful in
theorem Agree.weaken {s : State} {P Q : α → Prop} {o o' : Outcome α} (weaker : ∀ a, P a → Q a)
    (agree : C.Agree s P o o') : C.Agree s Q o o' := by
  cases agree with
  | cut u _ cut => exact .cut u o' cut
  | same _ ends =>
    refine .same o ?_
    cases o with
    | ok a u => exact ⟨ends.1, ends.2.1, weaker a ends.2.2.1, ends.2.2.2⟩
    | fault f u => exact ends
    | exhausted u => trivial

omit lawful in
/-- The end of a scope takes a computation back to the state before the scope, if there is one; `f`
is what else is done on the way out. -/
theorem Agree.closing {s t : State} {m m' : Eval α} {Q : α → Prop} {id : ScopeId}
    {f : State → State}
    (agree : C.Agree t Q (m t) (m' t)) (heap : ∀ u, (f u).heap = u.heap)
    (leave : ∀ u v, C.sound u → C.kept t u → u.closed id = some v →
      C.sound (f v) ∧ C.kept s (f v)) :
    C.Agree s Q (Eval.after (Eval.closing id m) f t) (Eval.after (Eval.closing id m') f t) := by
  unfold Eval.after Eval.closing
  generalize m t = o at agree
  generalize m' t = o' at agree
  cases agree with
  | cut u _ cut => exact .cut u _ cut
  | same _ ends =>
    refine .same _ ?_
    cases o with
    | ok a u =>
      simp only
      cases closed : u.closed id with
      | none => trivial
      | some v =>
        obtain ⟨sound, kept⟩ := leave u v ends.1 ends.2.1 closed
        exact ⟨sound, kept, ends.2.2.1, by rw [heap, State.heap_closed closed]; exact ends.2.2.2⟩
    | fault f u =>
      simp only
      cases closed : u.closed id with
      | none => trivial
      | some v =>
        obtain ⟨sound, kept⟩ := leave u v ends.1 ends.2.1 closed
        exact ⟨sound, kept, ends.2.2.1, by rw [heap, State.heap_closed closed]; exact ends.2.2.2⟩
    | exhausted u => trivial

/-- The second computation starts where the first one has answered. -/
theorem Agree.bind {s : State} {m m' : Eval α} {f f' : α → Eval β} {P : α → Prop} {Q : β → Prop}
    (agree : C.Agree s P (m s) (m' s))
    (then_ : ∀ a t, m s = .ok a t → C.sound t → C.kept s t → P a → Known (C.known t.heap) a →
      C.Agree t Q (f a t) (f' a t)) :
    C.Agree s Q ((m >>= f) s) ((m' >>= f') s) := by
  show C.Agree s Q (Eval.bind m f s) (Eval.bind m' f' s)
  unfold Eval.bind
  generalize m s = o at agree then_
  generalize m' s = o' at agree
  cases agree with
  | cut u _ cut => exact .cut u _ cut
  | same _ ends =>
    cases o with
    | ok a t =>
      obtain ⟨sound, kept, here, answer⟩ := ends
      exact (then_ a t rfl sound kept here answer).trans kept
    | fault f t => exact .same _ ends
    | exhausted u => exact .same _ trivial

theorem Agree.located {s : State} {m m' : Eval α} {Q : α → Prop} {span : Span}
    (agree : C.Agree s Q (m s) (m' s)) (place : C.Place span) :
    C.Agree s Q (Eval.located span m s) (Eval.located span m' s) := by
  unfold Eval.located
  generalize m s = o at agree
  generalize m' s = o' at agree
  cases agree with
  | cut u _ cut => exact .cut u _ cut
  | same _ ends =>
    refine .same _ ?_
    cases o with
    | ok a t => exact ends
    | fault f t =>
      obtain ⟨sound, kept, raised, told⟩ := ends
      exact ⟨sound, kept, lawful.located f span place raised, told.located span⟩
    | exhausted u => trivial

omit lawful [Mentions α] in
theorem after_id (m : Eval α) : Eval.after m id = m := by
  funext s
  unfold Eval.after
  split <;> simp_all

omit lawful [Mentions α] in
theorem inScope_eq (kind : ScopeKind) (parent : ScopeId) (body : ScopeId → Eval α) (s : State) :
    Eval.inScope kind parent body s =
      Eval.after (Eval.closing s.scopes.nextSlot (body s.scopes.nextSlot)) id
        (s.opened kind parent) := by
  rw [after_id, ← s.scopes.push_fst kind parent s.isAlive]
  rfl

namespace Sat

variable {m m' : Eval α} {Q : α → Prop}

omit lawful in
theorem weaken {P : α → Prop} (sat : C.Sat env k m m' P) (weaker : ∀ a, P a → Q a) :
    C.Sat env k m m' Q :=
  ⟨fun s sound live known => (sat.run s sound live known).weaken weaker⟩

omit lawful in
theorem any (sat : C.Sat env k m m' Q) : C.Sat env k m m' :=
  sat.weaken fun _ _ => trivial

omit lawful in
/-- More may be known than has to be. -/
theorem more {told : Knowledge} (sat : C.Sat env k m m' Q) (more : k ⊆ told) :
    C.Sat env told m m' Q :=
  ⟨fun s sound live known => sat.run s sound live (more.trans known)⟩

omit lawful in
theorem told (sat : C.Sat env k m m' Q) (b : β) : C.Sat env (k.plus b) m m' Q :=
  sat.more Knowledge.subset_plus

omit lawful in
/-- A computation in which nothing is nested. -/
theorem plain (ends : ∀ s, C.sound s → C.live env s → k ⊆ C.known s.heap → C.Ends s Q (m s)) :
    C.Sat env k m m Q :=
  ⟨fun s sound live known => .same _ (ends s sound live known)⟩

omit lawful in
theorem exhausted : C.Sat env k (Eval.exhausted : Eval α) Eval.exhausted Q :=
  plain fun _ _ _ _ => trivial

omit lawful in
theorem ite {c : Prop} [Decidable c] {n n' : Eval α} (yes : c → C.Sat env k m m' Q)
    (no : ¬c → C.Sat env k n n' Q) :
    C.Sat env k (if c then m else n) (if c then m' else n') Q := by
  by_cases holds : c
  · simpa only [if_pos holds] using yes holds
  · simpa only [if_neg holds] using no holds

theorem pure {a : α} [known : Known k a] (here : Q a) :
    C.Sat env k (Pure.pure a) (Pure.pure a) Q :=
  plain fun s sound _ more => ⟨sound, lawful.refl s, here, known.more more⟩

/-- A result of which nothing is asked. -/
theorem ok {a : α} [Known k a] : C.Sat env k (Pure.pure a) (Pure.pure a) :=
  pure trivial

/-- The second computation knows what the first one has answered. -/
theorem bind {P : α → Prop} {Q : β → Prop} {f f' : α → Eval β} (first : C.Sat env k m m' P)
    (then_ : ∀ a, P a → C.Sat env (k.plus a) (f a) (f' a) Q) :
    C.Sat env k (m >>= f) (m' >>= f') Q := by
  constructor
  intro s sound live known
  refine (first.run s sound live known).bind ?_
  intro a t _ sound' kept here answer
  have later := known.trans (lawful.known_kept _ _ kept)
  exact (then_ a here).run t sound' (lawful.live_kept _ _ _ live kept)
    (Knowledge.plus_subset later answer)

/-- What is read from a state mentions what the state does. -/
theorem reads (f : State → α) [known : ∀ s, Known (k.plus s) (f s)]
    (holds : ∀ s, (C.bounded → s.heap.Within) → Q (f s)) :
    C.Sat env k (Eval.gets f) (Eval.gets f) Q :=
  plain fun s sound _ told =>
    ⟨sound, lawful.refl s, holds s fun bounded => lawful.within bounded s sound,
    (known s).more (Knowledge.plus_subset told (lawful.known_stored s sound))⟩

theorem gets (f : State → α) [known : ∀ s, Known (k.plus s) (f s)] :
    C.Sat env k (Eval.gets f) (Eval.gets f) :=
  reads f fun _ _ => trivial

theorem raise {c : Cause} [known : Known k c] (scripted : c.kind ≠ .internal) :
    C.Sat env k (Eval.raise c : Eval α) (Eval.raise c) Q :=
  plain fun s sound _ more =>
    ⟨sound, lawful.refl s, lawful.scripted c scripted, ⟨(known.more more).subset⟩⟩

theorem typeFault (f : TypeFault) : C.Sat env k (Eval.typeFault f : Eval α) (Eval.typeFault f) Q :=
  raise (by simp [Cause.kind])

theorem rangeFault (f : RangeFault) :
    C.Sat env k (Eval.rangeFault f : Eval α) (Eval.rangeFault f) Q :=
  raise (by simp [Cause.kind])

theorem located {span : Span} (place : C.Place span) (sat : C.Sat env k m m' Q) :
    C.Sat env k (Eval.located span m) (Eval.located span m') Q :=
  ⟨fun s sound live known => (sat.run s sound live known).located place⟩

/-- What handles a fault knows what was thrown. -/
theorem recover {h h' : Fault → Eval α} (sat : C.Sat env k m m' Q)
    (handle : ∀ f, C.raised f → C.Sat env (k.plus f) (h f) (h' f) Q) :
    C.Sat env k (Eval.recover m h) (Eval.recover m' h') Q := by
  constructor
  intro s sound live known
  have agree := sat.run s sound live known
  unfold Eval.recover
  generalize m s = o at agree
  generalize m' s = o' at agree
  cases agree with
  | cut u _ cut => exact .cut u _ cut
  | same _ ends =>
    cases o with
    | ok a t => exact .same _ ends
    | fault f t =>
      obtain ⟨sound', kept, raised, told⟩ := ends
      have later := known.trans (lawful.known_kept _ _ kept)
      exact ((handle f raised).run t sound' (lawful.live_kept _ _ _ live kept)
        (Knowledge.plus_subset later told)).trans kept
    | exhausted u => exact .same _ trivial

/-- A fault that goes on. -/
theorem rethrow {f : Fault} [told : Known k f] (raised : C.raised f) :
    C.Sat env k (fun s => Outcome.fault f s : Eval α) (fun s => .fault f s) Q :=
  plain fun s sound _ known => ⟨sound, lawful.refl s, raised, told.more known⟩

theorem discard (sat : C.Sat env k m m' Q) :
    C.Sat env k (Functor.discard m) (Functor.discard m') :=
  bind sat.any fun _ _ => ok

/-! ### Steps on the heap and on the console -/

theorem step {f : State → α} {h : State → Heap}
    (steps : ∀ s : State, k ⊆ C.known s.heap → s.heap.Step C.known (h s))
    (known : ∀ s, Known (C.known (h s)) (f s))
    (within : C.bounded → ∀ s : State, s.heap.Within → (h s).Within) :
    C.Sat env k (fun s : State => Outcome.ok (f s) { s with heap := h s })
      (fun s => .ok (f s) { s with heap := h s }) := by
  refine plain ?_
  intro s sound _ told
  obtain ⟨sound', kept⟩ := lawful.heap s (h s) sound (steps s told) fun bounded =>
    within bounded s (lawful.within bounded s sound)
  exact ⟨sound', kept, trivial, known s⟩

theorem newArray (elements : Array Value) [known : Known k elements]
    (sized : C.bounded → elements.size ≤ Value.maxArrayLength) :
    C.Sat env k (Eval.newArray elements) (Eval.newArray elements) :=
  step (fun _ told => .newArray elements (known.more told)) (fun _ => Known.array _)
    fun bounded _ within => within.newArray (sized bounded)

theorem newObject (o : Object) [known : Known k o] :
    C.Sat env k (Eval.newObject o) (Eval.newObject o) := by
  refine step (fun _ told => .newObject o (known.more told)) (fun s => ⟨?_⟩)
    fun _ _ within => within
  rintro _ rfl
  exact lawful.known_there _ _ (by simp)

theorem newNative (name : String) (arity : Nat) (op : Native) [known : Known k op] :
    C.Sat env k (Eval.newFunction { name := name, callable := .native arity op })
      (Eval.newFunction { name := name, callable := .native arity op }) :=
  step (fun _ told => .newNative name arity op (known.more told)) (fun _ => Known.function _)
    fun _ _ within => within

theorem setArray (r : ArrayRef) (f : Array Value → Array Value)
    [known : ∀ xs, Known (k.plus xs) (f xs)]
    (sized : C.bounded → ∀ xs, xs.size ≤ Value.maxArrayLength →
      (f xs).size ≤ Value.maxArrayLength) :
    C.Sat env k (Eval.modifyHeap (·.modifyArray r f)) (Eval.modifyHeap (·.modifyArray r f)) :=
  step (fun _ told => .setArray r f fun xs => (known xs).more (Knowledge.plus_mono told))
    (fun _ => inferInstance) fun bounded _ within => within.modifyArray (sized bounded)

theorem setObject (r : ObjectRef) (f : Table Value → Table Value)
    [known : ∀ t, Known (k.plus t) (f t)] :
    C.Sat env k (Eval.modifyHeap (·.modifyObject r fun o => { o with props := f o.props }))
      (Eval.modifyHeap (·.modifyObject r fun o => { o with props := f o.props })) :=
  step (fun _ told => .setObject r f fun a => (known a).more (Knowledge.plus_mono told))
    (fun _ => inferInstance) fun _ _ within => within

theorem setFunction (r : FunctionRef) (f : Table Value → Table Value)
    [known : ∀ t, Known (k.plus t) (f t)] :
    C.Sat env k (Eval.modifyHeap (·.modifyFunction r fun g => { g with props := f g.props }))
      (Eval.modifyHeap (·.modifyFunction r fun g => { g with props := f g.props })) :=
  step (fun _ told => .setFunction r f fun a => (known a).more (Knowledge.plus_mono told))
    (fun _ => inferInstance) fun _ _ within => within

/-! ### Scopes -/

theorem edits {a : Arena} {s : State} (sound : C.sound s)
    (edits : s.scopes.Edits (Known (C.known s.heap)) a) :
    C.sound { s with scopes := a } ∧ C.kept s { s with scopes := a } := by
  induction edits with
  | refl => exact ⟨sound, lawful.refl s⟩
  | tail _ edit ih =>
    obtain ⟨sound', kept⟩ := lawful.edit _ _ ih.1 edit
    exact ⟨sound', lawful.trans _ _ _ ih.2 kept⟩

theorem onScopes {op : Arena.Op α} [Mentions.Plain α] {v : Value} [known : Known k v]
    (editing : op.Editing (· = v)) : C.Sat env k (Eval.onScopes op) (Eval.onScopes op) := by
  refine plain ?_
  intro s sound _ told
  have edited := (editing.mono fun w same => same ▸ known.more told).run s.scopes
  obtain ⟨heap, scopes, realm, memory, depth, console⟩ := s
  unfold Eval.onScopes
  simp only at edited ⊢
  cases done : op scopes with
  | ok a b =>
    rw [done] at edited
    obtain ⟨sound', kept⟩ := Sat.edits sound edited
    exact ⟨sound', kept, trivial, inferInstance⟩
  | error c b =>
    rw [done] at edited
    obtain ⟨sound', kept⟩ := Sat.edits sound edited.1
    exact ⟨sound', kept, lawful.scripted c edited.2.1, ⟨(Known.of_not_thrown edited.2.2).subset⟩⟩

theorem inScope {body body' : ScopeId → Eval α}
    (sat : ∀ scope, C.Sat scope k (body scope) (body' scope) Q) :
    C.Sat env k (Eval.inScope .block env body) (Eval.inScope .block env body') Q := by
  constructor
  intro s sound live known
  obtain ⟨sound', live'⟩ := lawful.opened s env sound live
  rw [inScope_eq, inScope_eq]
  exact ((sat _).run _ sound' live' known).closing (fun _ => rfl) fun t u =>
    lawful.closed s env t u sound live

end Sat

/-- Two computations that agree; if they grow, then only where the result of the first one leaves
the heap within the limits. It is the last step of a computation that may go beyond them. -/
structure SatLanding {α : Type} [Mentions α] (C : Contract) (grows : Prop) (env : ScopeId)
    (k : Knowledge) (m m' : Eval α) : Prop where
  intro ::
  run : ∀ s, C.sound s → C.live env s → k ⊆ C.known s.heap →
    (C.bounded → grows → (m s).Lands) → C.Agree s (fun _ => True) (m s) (m' s)

namespace SatLanding

variable {grows : Prop} {m m' : Eval α}

omit lawful in
theorem of_sat (sat : C.Sat env k m m') : C.SatLanding grows env k m m' :=
  ⟨fun s sound live known _ => sat.run s sound live known⟩

theorem bind {f f' : α → Eval β} {P : α → Prop} (first : C.Sat env k m m' P)
    (then_ : ∀ a, P a → C.SatLanding grows env (k.plus a) (f a) (f' a)) :
    C.SatLanding grows env k (m >>= f) (m' >>= f') := by
  constructor
  intro s sound live known lands
  refine (first.run s sound live known).bind ?_
  intro a t done sound' kept here answer
  have later := known.trans (lawful.known_kept _ _ kept)
  have same : (m >>= f) s = f a t := by
    show Eval.bind m f s = f a t
    simp only [Eval.bind, done]
  exact (then_ a here).run t sound' (lawful.live_kept _ _ _ live kept)
    (Knowledge.plus_subset later answer) (same ▸ lands)

theorem newArray (may : grows) (elements : Array Value) [known : Known k elements] :
    C.SatLanding grows env k (Eval.newArray elements) (Eval.newArray elements) := by
  constructor
  intro s sound _ told lands
  obtain ⟨sound', kept⟩ :=
    lawful.heap s _ sound (.newArray elements (known.more told)) fun bounded =>
    lands bounded may _ _ rfl
  exact .same _ ⟨sound', kept, trivial, Known.array _⟩

/-- An array is changed, and something is read from the state then. -/
theorem setArray (may : grows) (r : ArrayRef) (f : Array Value → Array Value) (read : State → α)
    [known : ∀ xs, Known (k.plus xs) (f xs)] [told : ∀ s, Known (k.plus s) (read s)] :
    C.SatLanding grows env k (do Eval.modifyHeap (·.modifyArray r f); Eval.gets read)
      (do Eval.modifyHeap (·.modifyArray r f); Eval.gets read) := by
  constructor
  intro s sound _ more lands
  have step : s.heap.Step C.known (s.heap.modifyArray r f) :=
    .setArray r f fun xs => (known xs).more (Knowledge.plus_mono more)
  obtain ⟨sound', kept⟩ := lawful.heap s _ sound step fun bounded => lands bounded may _ _ rfl
  have later := more.trans (lawful.known_kept _ _ kept)
  exact .same _ ⟨sound', kept, trivial,
    (told _).more (Knowledge.plus_subset later (lawful.known_stored _ sound'))⟩

theorem located {span : Span} (place : C.Place span) (sat : C.SatLanding grows env k m m') :
    C.SatLanding grows env k (Eval.located span m) (Eval.located span m') := by
  constructor
  intro s sound live known lands
  refine (sat.run s sound live known fun bounded may a t done => ?_).located place
  exact lands bounded may a t (by simp only [Eval.located, done])

end SatLanding

/-- Two ways of evaluating what is nested in a construct that satisfy a contract. -/
structure Fits (C : Contract) (r w : Recursion) : Prop where
  fuel : w.fuel = r.fuel
  expr : ∀ {k : Knowledge} (e env), C.fine (.expr e) → C.Sat env k (r.expr e env) (w.expr e env)
  stmt : ∀ {k : Knowledge} (st env), C.fine (.stmt st) → C.Sat env k (r.stmt st env) (w.stmt st env)
  bind : ∀ {k : Knowledge} (mode p v env) [Known k v], C.fine (.pattern mode p) →
    C.Sat env k (r.bind mode p v env) (w.bind mode p v env)
  call : ∀ {k : Knowledge} (f receiver args env) [Known k f] [Known k receiver] [Known k args],
    C.Sat env k (r.call f receiver args) (w.call f receiver args)
  body : ∀ {k : Knowledge} (fn env), C.fine (.function fn) →
    C.Sat env k (r.body fn env) (w.body fn env)

end Contract

end Scriptlet
