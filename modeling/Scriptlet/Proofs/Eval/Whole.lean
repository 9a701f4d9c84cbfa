import Scriptlet.Proofs.Eval.Natives
import Scriptlet.Proofs.Eval.Statements

/-!
Contracts hold of the evaluator as a whole, and of all that is nested in a run.

What a run passes through is seen by guards. A guard is put around each evaluation that is nested in
a run, and can cut the run short, with a state of its own; nothing in the language recovers from
that. So a guard that leaves the outcome as it is, whatever state it would cut the run short with,
has let everything pass.
-/

namespace Scriptlet

open Eval
open Mentions (mentions)

/-- What the evaluator can be asked for. -/
inductive Task : Type → Type where
  | expr (e : Expr) (env : ScopeId) : Task Value
  | stmt (st : Stmt) (env : ScopeId) : Task Completion
  | bind (mode : BindMode) (p : Pattern) (v : Value) (env : ScopeId) : Task Unit
  | call (callee receiver : Value) (args : List Value) : Task Value
  | body (fn : Function) (env : ScopeId) : Task Value
  | construct (callee : Value) (args : List Value) : Task Value
  | program (p : Program) : Task Value

namespace Task

variable {α : Type}

/-- The scope in which a task is done; calls have one of their own. -/
def env? : Task α → Option ScopeId
  | .expr _ env | .stmt _ env | .bind _ _ _ env | .body _ env => some env
  | .call _ _ _ | .construct _ _ => none
  | .program _ => some Arena.root

/-- The parts of a program that a task is about. -/
def nodes : Task α → List Node
  | .expr e _ => [.expr e]
  | .stmt st _ => [.stmt st]
  | .bind mode p _ _ => [.pattern mode p]
  | .body fn _ => [.function fn]
  | .call _ _ _ | .construct _ _ => []
  | .program p => p.body.map .stmt

/-- The values that a task is given. -/
instance : Mentions (Task α) where
  mentions
    | .bind _ _ v _ => mentions v
    | .call callee receiver args => mentions callee ∪ mentions receiver ∪ mentions args
    | .construct callee args => mentions callee ∪ mentions args
    | .expr _ _ | .stmt _ _ | .body _ _ | .program _ => ∅

/-- What the results of a task mention. -/
@[reducible]
def carries : Task α → Mentions α
  | .expr _ _ | .call _ _ _ | .body _ _ | .construct _ _ | .program _ =>
    (inferInstance : Mentions Value)
  | .stmt _ _ => (inferInstance : Mentions Completion)
  | .bind _ _ _ _ => (inferInstance : Mentions Unit)

/-- Does a task, with what is nested in it left to `r`. -/
def step (r : Recursion) : Task α → Eval α
  | .expr e env => expression r e env
  | .stmt st env => statement r st env
  | .bind mode p v env => bindPattern r mode p v env
  | .call callee receiver args => Eval.call r callee receiver args
  | .body fn env => functionBody r fn env
  | .construct callee args => Eval.construct r callee args
  | .program p => do
    match ← statements r p.body Arena.root with
    | .normal v | .return_ v => return v
    | .break_ | .continue_ => return .undefined

/-- Does a task with a given amount of fuel for what is nested in it. -/
def run (fuel : Nat) (task : Task α) : Eval α :=
  task.step (recursion fuel)

end Task

/-- The arrays that a call makes by steps that do not look at their length are not too long. -/
def Callable.Takes (c : Callable) (count : Nat) (lands : Prop) : Prop :=
  match c with
  | .closure fn _ _ => fn.Takes count
  | .native _ op => op.grows = true → lands

/-- The arrays that an evaluation makes by steps of its own that do not look at their length are not
too long. Only array literals, the binding of rests, and calls have such steps. -/
def Task.Modest {α : Type} (task : Task α) (s : State) (o : Outcome α) : Prop :=
  match task with
  | .expr e _ => e.isArray = true → o.Lands
  | .bind _ p v _ => p.Takes v
  | .call (.function ref) _ args =>
    ∀ f, s.heap.function? ref = some f → f.callable.Takes args.length o.Lands
  | _ => True

/-- Leaves everything that is nested to a function. -/
def Recursion.of (fuel : Nat) (run : (α : Type) → Task α → Eval α) : Recursion where
  fuel := fuel
  expr e env := run _ (.expr e env)
  stmt st env := run _ (.stmt st env)
  bind mode p v env := run _ (.bind mode p v env)
  call callee receiver args := run _ (.call callee receiver args)
  body fn env := run _ (.body fn env)

/-- What is put around each evaluation. -/
abbrev Guard : Type 1 := (α : Type) → Task α → Eval α → Eval α

namespace Guard

/-- The evaluator with a guard. -/
def recursion (g : Guard) : Nat → Recursion
  | 0 => .of 0 fun α task => g α task Eval.exhausted
  | fuel + 1 => .of (fuel + 1) fun α task => g α task (task.step (g.recursion fuel))

/-- Does a task under a guard. -/
def run (g : Guard) {α : Type} (fuel : Nat) (task : Task α) : Eval α :=
  g α task (task.step (g.recursion fuel))

/-- Lets everything pass. -/
def none : Guard := fun _ _ m => m

theorem recursion_none (fuel : Nat) : none.recursion fuel = Eval.recursion fuel := by
  induction fuel with
  | zero => rfl
  | succ fuel ih =>
    simp only [recursion, ih]
    rfl

theorem run_none {α : Type} (fuel : Nat) (task : Task α) : none.run fuel task = task.run fuel := by
  unfold run Task.run
  rw [recursion_none]
  rfl

open Classical in
/-- Cuts a run short unless a condition holds at the start and at the end of each evaluation. -/
noncomputable def check (P : (α : Type) → Task α → State → Prop) (cut : State) : Guard :=
  fun α task m s =>
    if P α task s then
      match m s with
      | .ok a t => if P α task t then .ok a t else .exhausted cut
      | .fault f t => if P α task t then .fault f t else .exhausted cut
      | .exhausted t => .exhausted t
    else .exhausted cut

open Classical in
/-- Cuts a run short where an evaluation ends otherwise than a condition says. -/
noncomputable def watch (P : (α : Type) → Task α → Outcome α → Prop) (cut : State) : Guard :=
  fun α task m s => if P α task (m s) then m s else .exhausted cut

open Classical in
/-- Cuts a run short where an evaluation ends otherwise than a condition says of the state in which
it starts. -/
noncomputable def watchFrom (P : (α : Type) → Task α → State → Outcome α → Prop)
    (cut : State) : Guard :=
  fun α task m s => if P α task s (m s) then m s else .exhausted cut

section Watch

variable {P : (α : Type) → Task α → Outcome α → Prop} {α : Type} {task : Task α} {m : Eval α}
  {s : State}

theorem watch_of_holds (cut : State) (holds : P α task (m s)) : watch P cut α task m s = m s :=
  if_pos holds

theorem watch_of_fails (cut : State) (fails : ¬P α task (m s)) :
    watch P cut α task m s = .exhausted cut :=
  if_neg fails

theorem watchFrom_of_holds {P : (α : Type) → Task α → State → Outcome α → Prop} (cut : State)
    (holds : P α task s (m s)) : watchFrom P cut α task m s = m s :=
  if_pos holds

theorem watchFrom_of_fails {P : (α : Type) → Task α → State → Outcome α → Prop} (cut : State)
    (fails : ¬P α task s (m s)) : watchFrom P cut α task m s = .exhausted cut :=
  if_neg fails

end Watch

end Guard

/-- A condition that holds at the start and at the end of all evaluations of a run, that of the task
itself included. -/
def Task.Always (P : (α : Type) → Task α → State → Prop) {α : Type} (fuel : Nat) (task : Task α)
    (s : State) : Prop :=
  ∀ cut, (Guard.check P cut).run fuel task s = task.run fuel s

/-- All evaluations of a run, that of the task itself included, end as a condition says. -/
def Task.Each (P : (α : Type) → Task α → Outcome α → Prop) {α : Type} (fuel : Nat) (task : Task α)
    (s : State) : Prop :=
  ∀ cut, (Guard.watch P cut).run fuel task s = task.run fuel s

/-- All evaluations of a run, that of the task itself included, end as a condition says of the
states in which they start. -/
def Task.EachFrom (P : (α : Type) → Task α → State → Outcome α → Prop) {α : Type} (fuel : Nat)
    (task : Task α) (s : State) : Prop :=
  ∀ cut, (Guard.watchFrom P cut).run fuel task s = task.run fuel s

/-- No run is cut short with each of all states. -/
theorem Outcome.of_exhausted_or {α : Type} {p : Prop} (o : Outcome α) (s : State)
    (each : ∀ u, o = .exhausted u ∨ p) : p := by
  rcases each s with first | holds
  · rcases each { s with depth := s.depth + 1 } with second | holds
    · rw [first, Outcome.exhausted.injEq] at second
      have depth := congrArg State.depth second
      simp at depth
    · exact holds
  · exact holds

theorem Task.Each.own {P : (α : Type) → Task α → Outcome α → Prop} {α : Type} {fuel : Nat}
    {task : Task α} {s : State} (each : task.Each P fuel s) : P α task (task.run fuel s) := by
  refine (task.run fuel s).of_exhausted_or s ?_
  intro u
  have same := each u
  unfold Guard.run at same
  by_cases holds : P α task (task.step ((Guard.watch P u).recursion fuel) s)
  · rw [Guard.watch_of_holds u holds] at same
    rw [same] at holds
    exact .inr holds
  · rw [Guard.watch_of_fails u holds] at same
    exact .inl same.symm

/-- An outcome by a value or by a fault. -/
def Outcome.EndsIn {α : Type} (o : Outcome α) (t : State) : Prop :=
  (∃ a, o = .ok a t) ∨ ∃ f, o = .fault f t

/-- A run goes through a state if some evaluation starts or ends in it. -/
def Task.Passes {α : Type} (fuel : Nat) (task : Task α) (s t : State) : Prop :=
  ¬task.Always (fun _ _ u => u ≠ t) fuel s

/-- A run that ends under a check meets the condition at its end. -/
theorem Guard.holds_of_endsIn {P : (α : Type) → Task α → State → Prop} {cut s t : State} {α : Type}
    {task : Task α} {m : Eval α} (ends : (check P cut α task m s).EndsIn t) : P α task t := by
  unfold check at ends
  split at ends
  · split at ends
    · split at ends
      · rcases ends with ⟨_, ⟨⟩⟩ | ⟨_, ⟨⟩⟩
        assumption
      · rcases ends with ⟨_, ⟨⟩⟩ | ⟨_, ⟨⟩⟩
    · split at ends
      · rcases ends with ⟨_, ⟨⟩⟩ | ⟨_, ⟨⟩⟩
        assumption
      · rcases ends with ⟨_, ⟨⟩⟩ | ⟨_, ⟨⟩⟩
    · rcases ends with ⟨_, ⟨⟩⟩ | ⟨_, ⟨⟩⟩
  · rcases ends with ⟨_, ⟨⟩⟩ | ⟨_, ⟨⟩⟩

theorem Task.passes_end {α : Type} {fuel : Nat} {task : Task α} {s t : State}
    (ends : (task.run fuel s).EndsIn t) : task.Passes fuel s t := by
  intro always
  rw [← always s] at ends
  exact Guard.holds_of_endsIn ends rfl

namespace Contract

variable {C : Contract} [lawful : C.Lawful] {r w : Recursion} {env : ScopeId} {k : Knowledge}
  {α : Type}

/-- Whether a task can be met, and done, in a state. -/
structure Starts (C : Contract) {α : Type} (task : Task α) (s : State) : Prop where
  sound : C.sound s
  live : ∀ env ∈ task.env?, C.live env s
  fine : ∀ n ∈ task.nodes, C.fine n
  [knows : Known (C.known s.heap) task]

/-- Two outcomes of a task that agree. -/
def AgreeOn (C : Contract) (task : Task α) (s : State) (o o' : Outcome α) : Prop :=
  @Agree α task.carries C s (fun _ => True) o o'

/-- How a task may end. -/
def EndsOn (C : Contract) (task : Task α) (s : State) (o : Outcome α) : Prop :=
  @Ends α task.carries C s (fun _ => True) o

namespace AgreeOn

variable {task : Task α} {s : State} {o o' : Outcome α}

omit lawful in
theorem cut (u : State) (o : Outcome α) (cut : C.cut u) : C.AgreeOn task s (.exhausted u) o :=
  @Agree.cut α task.carries C s _ u o cut

omit lawful in
theorem same (o : Outcome α) (ends : C.EndsOn task s o) : C.AgreeOn task s o o :=
  @Agree.same α task.carries C s _ o ends

omit lawful in
theorem cases (agree : C.AgreeOn task s o o') :
    (∃ u, C.cut u ∧ o = .exhausted u) ∨ (o' = o ∧ C.EndsOn task s o) :=
  @Agree.cases C α task.carries s _ o o' agree

end AgreeOn

section Fits

variable (fits : C.Fits r w)
include fits

omit lawful fits in
theorem callClosure_eq {ref : FunctionRef} {fn : Function} {η : Handle} {s : State}
    (calls : s.Calls ref fn η) (label : String) (receiver : Value) (args : List Value) :
    callClosure r ref label fn η.scope s.realm.id receiver args s =
      after (closing s.scopes.nextSlot (invoke r fn receiver args s.scopes.nextSlot)) State.returned
        (s.called η.scope) := by
  have start : callClosure r ref label fn η.scope s.realm.id receiver args s =
      after (inScope .function η.scope (invoke r fn receiver args)) State.returned
        { s with depth := s.depth + 1 } := by
    have deep : ¬s.realm.maxDepth ≤ s.depth := Nat.not_le_of_lt calls.shallow
    simp [callClosure, Bind.bind, Eval.bind, Eval.gets, Eval.modify, deep, calls.kept]
    rfl
  rw [start]
  unfold after
  rw [inScope_eq, after_id]
  rfl

theorem agree_call (callee receiver : Value) (args : List Value) {s : State} (sound : C.sound s)
    [given : Known (C.known s.heap) receiver] [rest : Known (C.known s.heap) args]
    (modest : C.bounded →
      (Task.call callee receiver args).Modest s (Eval.call r callee receiver args s)) :
    C.Agree s (fun _ => True) (Eval.call r callee receiver args s)
      (Eval.call w callee receiver args s) := by
  have live := lawful.live_root s sound
  have refuse : C.Sat Arena.root (C.known s.heap)
      (do typeFault (.notFunction (← Eval.gets (·.heap.inspect callee))) : Eval Value)
      (do typeFault (.notFunction (← Eval.gets (·.heap.inspect callee)))) :=
    .bind (.gets _) fun _ _ => .typeFault _
  cases callee with
  | function ref =>
    change C.bounded → ∀ f, s.heap.function? ref = some f → _ at modest
    simp only [Eval.call, Bind.bind, Eval.bind, Eval.gets] at modest ⊢
    cases there : s.heap.function? ref with
    | none => exact refuse.run s sound live subset_rfl
    | some f =>
      simp only [there, Option.some.injEq, forall_eq'] at modest ⊢
      cases callable : f.callable with
      | native arity op =>
        have stored := lawful.known_stored s sound
        have : Known (C.known s.heap) f := .of_some there
        have : Known (C.known s.heap) op := ⟨(callable ▸ Known.callable (f := f)).subset⟩
        simp only [callable] at modest ⊢
        exact (sat_native fits op receiver args).run s sound live subset_rfl modest
      | closure fn η realm =>
        by_cases own : realm = s.realm.id
        · subst own
          by_cases shallow : s.depth < s.realm.maxDepth
          · by_cases lost : ref ∈ s.memory.lost
            · have deep : ¬s.realm.maxDepth ≤ s.depth := Nat.not_le_of_lt shallow
              simp only [callClosure, Bind.bind, Eval.bind, Eval.gets, bne_self_eq_false, deep,
                decide_false, lost, decide_true, if_true, Bool.false_eq_true, if_false]
              exact Sat.exhausted.run s sound live subset_rfl
            · have calls : s.Calls ref fn η := ⟨⟨f, there, callable⟩, shallow, lost⟩
              obtain ⟨fine, sound', live'⟩ := lawful.called s ref fn η sound calls
              have takes (bounded : C.bounded) : fn.Takes args.length := by
                have modest := modest bounded
                rwa [callable] at modest
              simp only [callClosure_eq calls]
              have body : C.Sat s.scopes.nextSlot (C.known s.heap)
                  (invoke r fn receiver args s.scopes.nextSlot)
                  (invoke w fn receiver args s.scopes.nextSlot) :=
                sat_invoke fits fine receiver args takes
              refine (body.run _ sound' live' subset_rfl).closing (fun _ => rfl) fun t u => ?_
              exact lawful.returned s ref fn η t u sound calls
          · have deep : s.realm.maxDepth ≤ s.depth := Nat.le_of_not_lt shallow
            simp only [callClosure, Bind.bind, Eval.bind, Eval.gets, bne_self_eq_false, deep,
              decide_true, if_true, Bool.false_eq_true, if_false]
            exact (Sat.rangeFault .callDepth).run s sound live subset_rfl
        · have foreign : (realm != s.realm.id) = true := by simpa using own
          simp only [callClosure, Bind.bind, Eval.bind, Eval.gets, foreign, if_true]
          exact (Sat.typeFault _).run s sound live subset_rfl
  | _ => exact refuse.run s sound live subset_rfl

theorem agree_step (task : Task α) {s : State} (starts : C.Starts task s)
    (runs : ∀ n ∈ task.nodes, C.Runs n) (modest : C.bounded → task.Modest s (task.step r s)) :
    C.AgreeOn task s (task.step r s) (task.step w s) := by
  obtain @⟨sound, live, fine, knows⟩ := starts
  cases task with
  | expr e env =>
    exact (sat_expression fits (fine _ (by simp [Task.nodes])) (runs _ (by simp [Task.nodes]))).run
      s sound (live env rfl) subset_rfl modest
  | stmt st env =>
    exact (sat_statement fits (fine _ (by simp [Task.nodes]))).run s sound (live env rfl) subset_rfl
  | bind mode p v env =>
    have : Known (C.known s.heap) v := ⟨knows.subset⟩
    exact (sat_bindPattern fits (fine _ (by simp [Task.nodes])) v modest).run s sound (live env rfl)
      subset_rfl
  | call callee receiver args =>
    have : Known (C.known s.heap) receiver :=
      knows.less (Set.subset_union_right.trans Set.subset_union_left)
    have : Known (C.known s.heap) args := knows.less Set.subset_union_right
    exact agree_call fits callee receiver args sound modest
  | body fn env =>
    exact (sat_functionBody fits (fine _ (by simp [Task.nodes]))).run s sound
      (live env rfl) subset_rfl
  | construct callee args =>
    have : Known (C.known s.heap) args := knows.less Set.subset_union_right
    exact (sat_construct fits callee args).run s sound (lawful.live_root s sound) subset_rfl
  | program p =>
    refine Sat.run ?_ s sound (live Arena.root rfl) subset_rfl
    refine .bind (sat_statements fits fun st member => fine _ ?_) fun c _ => ?_
    · simp [Task.nodes, member]
    · cases c with
      | normal | return_ | break_ | continue_ => exact .ok

end Fits

/-! ### Guards -/

omit lawful in
/-- Two ways to do a task that differ in how they do what is nested in it. -/
inductive Twins (task : Task α) : Eval α → Eval α → Prop where
  | exhausted : Twins task Eval.exhausted Eval.exhausted
  | step (r w : Recursion) : Twins task (task.step r) (task.step w)

/-- Two guards under which evaluations agree if they do so without them. -/
def Guards (C : Contract) (g h : Guard) : Prop :=
  ∀ (α : Type) (task : Task α) (m m' : Eval α) (s : State), C.Starts task s → Twins task m m' →
    ((∀ n ∈ task.nodes, C.Runs n) → (C.bounded → task.Modest s (m s)) →
      C.AgreeOn task s (m s) (m' s)) →
    C.AgreeOn task s (g α task m s) (h α task m' s)

variable {g h : Guard}

omit lawful in
theorem fits_of {run run' : (α : Type) → Task α → Eval α} (fuel : Nat)
    (agree : ∀ (α : Type) (task : Task α) s, C.Starts task s →
      C.AgreeOn task s (run α task s) (run' α task s)) :
    C.Fits (.of fuel run) (.of fuel run') := by
  refine ⟨rfl, fun e env fine => ⟨fun s sound live _ => agree _ (.expr e env) s ?_⟩,
    fun st env fine => ⟨fun s sound live _ => agree _ (.stmt st env) s ?_⟩,
    fun mode p v env given fine => ⟨fun s sound live more => agree _ (.bind mode p v env) s ?_⟩,
    fun f receiver args env one two three => ⟨fun s sound live more =>
      agree _ (.call f receiver args) s ?_⟩,
    fun fn env fine => ⟨fun s sound live _ => agree _ (.body fn env) s ?_⟩⟩
  · have : Known (C.known s.heap) (Task.expr e env) := ⟨Set.empty_subset _⟩
    exact ⟨sound, by simpa [Task.env?] using live, by simpa [Task.nodes] using fine⟩
  · have : Known (C.known s.heap) (Task.stmt st env) := ⟨Set.empty_subset _⟩
    exact ⟨sound, by simpa [Task.env?] using live, by simpa [Task.nodes] using fine⟩
  · have : Known (C.known s.heap) (Task.bind mode p v env) := ⟨(given.more more).subset⟩
    exact ⟨sound, by simpa [Task.env?] using live, by simpa [Task.nodes] using fine⟩
  · have : Known (C.known s.heap) (Task.call f receiver args) := ⟨Set.union_subset
      (Set.union_subset (one.more more).subset (two.more more).subset) (three.more more).subset⟩
    exact ⟨sound, by simp [Task.env?], by simp [Task.nodes]⟩
  · have : Known (C.known s.heap) (Task.body fn env) := ⟨Set.empty_subset _⟩
    exact ⟨sound, by simpa [Task.env?] using live, by simpa [Task.nodes] using fine⟩

theorem fits_guarded (guards : C.Guards g h) (fuel : Nat) :
    C.Fits (g.recursion fuel) (h.recursion fuel) := by
  induction fuel with
  | zero =>
    refine fits_of 0 fun α task s starts => ?_
    exact guards α task _ _ s starts .exhausted fun _ _ => .same _ trivial
  | succ fuel ih =>
    refine fits_of (fuel + 1) fun α task s starts => ?_
    exact guards α task _ _ s starts (.step _ _) (agree_step ih task starts)

theorem agree_run (guards : C.Guards g h) (fuel : Nat) (task : Task α) {s : State}
    (starts : C.Starts task s) : C.AgreeOn task s (g.run fuel task s) (h.run fuel task s) :=
  guards α task _ _ s starts (.step _ _) (agree_step (fits_guarded guards fuel) task starts)

omit lawful in
/-- If a guard changes nothing about a run, wherever it would cut the run short, then no more does a
guard under which evaluations agree with it. -/
theorem run_eq_of_guards {D : State → Contract} [∀ u, (D u).Lawful] {guard : State → Guard}
    {task : Task α} {fuel : Nat} {s : State} (cut : ∀ u v, (D u).cut v → v = u)
    (guards : ∀ u, (D u).Guards (guard u) h) (starts : ∀ u, (D u).Starts task s)
    (unchanged : ∀ u, (guard u).run fuel task s = task.run fuel s) :
    h.run fuel task s = task.run fuel s := by
  have cases (u : State) :
      task.run fuel s = .exhausted u ∨ h.run fuel task s = task.run fuel s := by
    have agree := agree_run (guards u) fuel task (starts u)
    rw [unchanged u] at agree
    rcases agree.cases with ⟨v, there, done⟩ | ⟨same, -⟩
    · rw [cut u v there] at done
      exact .inl done
    · exact .inr same
  exact (task.run fuel s).of_exhausted_or s cases

/-- A contract that never gives anything up. -/
class Complete (C : Contract) : Prop where
  runs : ∀ e, ¬C.stops e
  cut : ∀ u, ¬C.cut u
  unbounded : ¬C.bounded

variable [complete : C.Complete]

omit lawful in
theorem AgreeOn.eq {task : Task α} {s : State} {o o' : Outcome α} (agree : C.AgreeOn task s o o') :
    o' = o ∧ C.EndsOn task s o := by
  rcases agree.cases with ⟨u, cut, -⟩ | same
  · exact absurd cut (complete.cut u)
  · exact same

omit lawful in
theorem Sat.ends [Mentions α] {m m' : Eval α} {Q : α → Prop} (sat : C.Sat env k m m' Q) {s : State}
    (sound : C.sound s) (live : C.live env s) (known : k ⊆ C.known s.heap) : C.Ends s Q (m s) := by
  rcases (sat.run s sound live known).cases with ⟨u, cut, -⟩ | ⟨-, ends⟩
  · exact absurd cut (complete.cut u)
  · exact ends

/-- What is nested in a run satisfies a contract that never gives anything up. -/
theorem fits_recursion (fuel : Nat) : C.Fits (Eval.recursion fuel) (Eval.recursion fuel) := by
  have guards : C.Guards .none .none := fun α task m m' s _ _ agree =>
    agree (fun n _ e _ => complete.runs e) fun bounded => (complete.unbounded bounded).elim
  rw [← Guard.recursion_none]
  exact fits_guarded guards fuel

theorem ends_run (fuel : Nat) (task : Task α) {s : State} (starts : C.Starts task s) :
    C.EndsOn task s (task.run fuel s) := by
  have guards : C.Guards .none .none := fun α task m m' s _ _ agree =>
    agree (fun n _ e _ => complete.runs e) fun bounded => (complete.unbounded bounded).elim
  rw [← Guard.run_none]
  exact (agree_run guards fuel task starts).eq.2

omit lawful complete in
theorem Ends.endsIn [Mentions α] {Q : α → Prop} {o : Outcome α} {s t : State} (ends : C.Ends s Q o)
    (ended : o.EndsIn t) : C.sound t ∧ C.kept s t := by
  rcases ended with ⟨a, rfl⟩ | ⟨f, rfl⟩
  · exact ⟨ends.1, ends.2.1⟩
  · exact ⟨ends.1, ends.2.1⟩

theorem endsIn_run {fuel : Nat} {task : Task α} {s t : State} (starts : C.Starts task s)
    (ended : (task.run fuel s).EndsIn t) : C.sound t ∧ C.kept s t :=
  @Ends.endsIn C α task.carries _ _ s t (ends_run fuel task starts) ended

omit lawful in
theorem guards_check {P : (α : Type) → Task α → State → Prop} (cut : State)
    (starts : ∀ (α : Type) (task : Task α) s, C.Starts task s → P α task s)
    (ends : ∀ (α : Type) (task : Task α) s t, C.Starts task s → C.sound t → C.kept s t →
      P α task t) :
    C.Guards .none (.check P cut) := by
  intro α task m m' s here _ agree
  obtain ⟨same, ending⟩ :=
    (agree (fun n _ e _ => complete.runs e) fun bounded => (complete.unbounded bounded).elim).eq
  show C.AgreeOn task s (m s) _
  unfold Guard.check
  rw [if_pos (starts α task s here), same]
  cases done : m s with
  | ok a t =>
    rw [done] at ending
    simp only [if_pos (ends α task s t here ending.1 ending.2.1)]
    exact .same _ ending
  | fault f t =>
    rw [done] at ending
    simp only [if_pos (ends α task s t here ending.1 ending.2.1)]
    exact .same _ ending
  | exhausted t => exact .same _ trivial

/-- What holds of all states in which something can be met holds all through a run. -/
theorem always_of_starts {P : (α : Type) → Task α → State → Prop}
    (holds : ∀ (α : Type) (task : Task α) s, C.Starts task s → P α task s) (fuel : Nat)
    (task : Task α) {s : State} (starts : C.Starts task s) : task.Always P fuel s := by
  intro cut
  have guards : C.Guards .none (.check P cut) := by
    refine guards_check cut holds fun α task s t here sound kept => ?_
    -- a task could start again where it ended
    have := here.knows.more (lawful.known_kept _ _ kept)
    refine holds α task t ⟨sound, fun env member => ?_, here.fine⟩
    exact lawful.live_kept _ _ _ (here.live env member) kept
  rw [← Guard.run_none]
  exact (agree_run guards fuel task starts).eq.1

theorem sound_of_passes {fuel : Nat} {task : Task α} {s t : State} (starts : C.Starts task s)
    (passes : task.Passes fuel s t) : C.sound t := by
  by_cases sound : C.sound t
  · exact sound
  · refine absurd (always_of_starts (fun _ _ u here => ?_) fuel task starts) passes
    rintro rfl
    exact sound here.sound

end Contract

end Scriptlet
