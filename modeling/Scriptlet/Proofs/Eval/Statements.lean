import Scriptlet.Proofs.Eval.Constructs

/-!
Statements satisfy every contract.

Loops are by induction on their fuel, and the loops over known values by induction on these.
-/

namespace Scriptlet.Contract

open Eval

variable {C : Contract} [lawful : C.Lawful] {r w : Recursion} {env : ScopeId} {k : Knowledge}

theorem sat_continueWith {next next' : Eval Completion} (c : Completion) [given : Known k c]
    (sat : C.Sat env k next next') :
    C.Sat env k (continueWith c next) (continueWith c next') := by
  cases c with
  | normal | continue_ => exact sat
  | break_ => exact .ok
  | return_ v =>
    have : Known k v := ⟨given.subset⟩
    exact .ok

omit lawful in
/-- Takes another outcome in place of a normal completion. -/
theorem agree_unless {s : State} (instead : State → Outcome Completion) :
    ∀ {o o' : Outcome Completion}, C.Agree s (fun _ => True) o o' →
    (∀ v u, C.Ends s (fun _ => True) (.ok (Completion.normal v) u) →
      C.Ends s (fun _ => True) (instead u)) →
    C.Agree s (fun _ => True)
      (match o with
        | .ok (.normal _) u => instead u
        | other => other)
      (match o' with
        | .ok (.normal _) u => instead u
        | other => other) := by
  intro o o' agree ends
  cases agree with
  | cut u _ cut => exact .cut u _ cut
  | same _ here =>
    refine .same _ ?_
    split
    · exact ends _ _ here
    · exact here

/-- What runs last is run from the state that the first computation leaves. -/
theorem Sat.finishing {m m' last last' : Eval Completion} (first : C.Sat env k m m')
    (then_ : C.Sat env k last last') :
    C.Sat env k (Eval.finishing m last) (Eval.finishing m' last') := by
  constructor
  intro s sound live known
  have agree := first.run s sound live known
  unfold Eval.finishing
  generalize m s = o at agree
  generalize m' s = o' at agree
  cases agree with
  | cut u _ cut => exact .cut u _ cut
  | same _ ends =>
    cases o with
    | exhausted u => exact .same _ trivial
    | ok c t =>
      obtain ⟨sound', kept, -, answer⟩ := ends
      have later := then_.run t sound' (lawful.live_kept _ _ _ live kept)
        (known.trans (lawful.known_kept _ _ kept))
      refine agree_unless (.ok c) later ?_ |>.trans kept
      intro v u ends
      exact ⟨ends.1, ends.2.1, trivial, answer.more (lawful.known_kept _ _ ends.2.1)⟩
    | fault f t =>
      obtain ⟨sound', kept, raised, told⟩ := ends
      have later := then_.run t sound' (lawful.live_kept _ _ _ live kept)
        (known.trans (lawful.known_kept _ _ kept))
      refine agree_unless (.fault f) later ?_ |>.trans kept
      intro v u ends
      exact ⟨ends.1, ends.2.1, raised, told.more (lawful.known_kept _ _ ends.2.1)⟩

theorem sat_hoistCases {list : List Case} (fine : ∀ n ∈ list.flatMap Case.nodes, C.fine n) :
    C.Sat env k (hoistCases env list) (hoistCases env list) := by
  induction list generalizing k with
  | nil => exact .ok
  | cons c rest ih =>
    simp only [List.flatMap_cons, List.mem_append] at fine
    refine .bind (sat_hoistFunctions fun st member => fine _ (.inl ?_)) fun _ _ => ?_
    · simp [Case.nodes, member]
    · exact ih fun n member => fine n (.inr member)

section Fits

variable (fits : C.Fits r w)
include fits

theorem sat_block {b : Block} (fine : ∀ st ∈ b.body, C.fine (.stmt st)) :
    C.Sat env k (block r b env) (block w b env) :=
  .inScope fun _ => sat_statements fits fine

theorem sat_declarators {kind : DeclKind} {list : List Declarator}
    (fine : ∀ n ∈ list.flatMap (Declarator.nodes kind), C.fine n) :
    C.Sat env k (declarators r kind env list) (declarators w kind env list) := by
  induction list generalizing k with
  | nil => exact .ok
  | cons d rest ih =>
    simp only [List.flatMap_cons, List.mem_append] at fine
    have later {told : Knowledge} := @ih told fun n member => fine n (.inr member)
    obtain ⟨target, init, span⟩ := d
    have pattern : C.fine (.pattern (.declare kind) target) :=
      fine _ (.inl (by simp [Declarator.nodes]))
    cases init with
    | none =>
      cases target with
      | identifier =>
        refine .bind (.located ⟨_, pattern, ?_⟩ (.onScopes (Arena.editing_declare ..)))
          fun _ _ => later
        simp [Node.spans]
      | _ => exact .bind .ok fun _ _ => .bind (fits.bind _ _ _ _ pattern) fun _ _ => later
    | some e =>
      have value : C.fine (.expr e) := fine _ (.inl (by simp [Declarator.nodes]))
      cases target with
      | _ =>
        exact .bind (sat_named fits value _) fun _ _ =>
          .bind (fits.bind _ _ _ _ pattern) fun _ _ => later

/-! ### Loops -/

theorem sat_holds {test : Option Expr} (fine : ∀ e ∈ test, C.fine (.expr e)) :
    C.Sat env k (holds r test env) (holds w test env) := by
  cases test with
  | none => exact .ok
  | some e => exact .bind (fits.expr e env (fine e rfl)) fun _ _ => .ok

theorem sat_forLoop {test update : Option Expr} {body : Stmt}
    (tests : ∀ e ∈ test, C.fine (.expr e)) (updates : ∀ e ∈ update, C.fine (.expr e))
    (fine : C.fine (.stmt body)) (fuel : Nat) :
    C.Sat env k (forLoop r test update body env fuel) (forLoop w test update body env fuel) := by
  induction fuel generalizing k with
  | zero => exact .exhausted
  | succ fuel ih =>
    refine .bind (sat_holds fits tests) fun goes _ => .ite (fun _ => ?_) fun _ => .ok
    refine .bind (fits.stmt body env fine) fun c _ => sat_continueWith c ?_
    cases update with
    | none => exact ih
    | some e => exact .bind (.discard (fits.expr e env (updates e rfl))) fun _ _ => ih

theorem sat_whileLoop {test : Expr} {body : Stmt} (tests : C.fine (.expr test))
    (fine : C.fine (.stmt body)) (fuel : Nat) :
    C.Sat env k (whileLoop r test body env fuel) (whileLoop w test body env fuel) := by
  induction fuel generalizing k with
  | zero => exact .exhausted
  | succ fuel ih =>
    refine .bind (fits.expr test env tests) fun t _ => .ite (fun _ => ?_) fun _ => .ok
    exact .bind (fits.stmt body env fine) fun c _ => sat_continueWith c ih

theorem sat_doWhileLoop {test : Expr} {body : Stmt} (tests : C.fine (.expr test))
    (fine : C.fine (.stmt body)) (fuel : Nat) :
    C.Sat env k (doWhileLoop r test body env fuel) (doWhileLoop w test body env fuel) := by
  induction fuel generalizing k with
  | zero => exact .exhausted
  | succ fuel ih =>
    refine .bind (fits.stmt body env fine) fun c _ => sat_continueWith c ?_
    exact .bind (fits.expr test env tests) fun t _ => .ite (fun _ => ih) fun _ => .ok

theorem sat_visit {mode : BindMode} {target : Pattern} {body : Stmt}
    (pattern : C.fine (.pattern mode target)) (fine : C.fine (.stmt body)) (item : Value)
    [Known k item] :
    C.Sat env k (visit r mode target body env item) (visit w mode target body env item) :=
  .inScope fun scope => .bind (fits.bind _ _ _ _ pattern) fun _ _ => fits.stmt body scope fine

omit fits in
theorem sat_visitAll {round round' : Value → Eval Completion}
    (sat : ∀ {told : Knowledge} item [Known told item], C.Sat env told (round item) (round' item))
    (list : List Value) [given : Known k list] :
    C.Sat env k (visitAll round list) (visitAll round' list) := by
  induction list generalizing k given with
  | nil => exact .ok
  | cons item rest ih =>
    obtain ⟨_, _⟩ := Known.cons_iff.1 given
    exact .bind (sat item) fun c _ => sat_continueWith c ih

omit fits in
theorem sat_visitElements {round round' : Value → Eval Completion}
    (sat : ∀ {told : Knowledge} item [Known told item], C.Sat env told (round item) (round' item))
    (ref : ArrayRef) (index fuel : Nat) :
    C.Sat env k (visitElements round ref index fuel) (visitElements round' ref index fuel) := by
  induction fuel generalizing index k with
  | zero => exact .exhausted
  | succ fuel ih =>
    apply Sat.bind (.gets _)
    intro found _
    cases found with
    | none => exact .ok
    | some item => exact .bind (sat item) fun c _ => sat_continueWith c (ih _)

theorem sat_forEachLoop {mode : EachMode} {bindMode : BindMode} {target : Pattern} {subject : Expr}
    {body : Stmt} (pattern : C.fine (.pattern bindMode target)) (given : C.fine (.expr subject))
    (fine : C.fine (.stmt body)) :
    C.Sat env k (forEach r mode bindMode target subject body env)
      (forEach w mode bindMode target subject body env) := by
  have round {told : Knowledge} (item : Value) [Known told item] :
      C.Sat env told (visit r bindMode target body env item)
        (visit w bindMode target body env item) :=
    sat_visit fits pattern fine item
  apply Sat.bind (fits.expr subject env given)
  intro v _
  cases mode with
  | elements =>
    cases v with
    | array ref =>
      simp only [fits.fuel]
      exact sat_visitElements round ref 0 r.fuel
    | _ =>
      exact .bind (.located (place_expr given) (sat_iterate _)) fun items _ =>
        sat_visitAll round items
  | keys => exact .bind (.gets _) fun keys _ => sat_visitAll round _

/-! ### Choices and handlers -/

/-- The cases that are found are among those that were looked through. -/
theorem sat_findCase {list : List Case} (fine : ∀ n ∈ list.flatMap Case.nodes, C.fine n)
    (subject : Value) :
    C.Sat env k (findCase r subject env list) (findCase w subject env list)
      fun found => ∀ chosen ∈ found, ∀ c ∈ chosen, c ∈ list := by
  induction list generalizing k with
  | nil => exact .pure (by simp)
  | cons c rest ih =>
    simp only [List.flatMap_cons, List.mem_append] at fine
    have later {told : Knowledge} := (@ih told fun n member => fine n (.inr member)).weaken
      (Q := fun found => ∀ chosen ∈ found, ∀ d ∈ chosen, d ∈ c :: rest)
      fun found among chosen here d member => List.mem_cons_of_mem _ (among chosen here d member)
    have tests : ∀ e ∈ c.test, C.fine (.expr e) := fun e here =>
      fine _ (.inl (by simp [Case.nodes, Option.mem_def.1 here]))
    unfold findCase
    cases test : c.test with
    | none => exact later
    | some e =>
      refine .bind (fits.expr e env (tests e test)) fun v _ => .ite (fun _ => ?_) fun _ => later
      exact .pure (by simp)

theorem sat_runCases {list : List Case} (fine : ∀ n ∈ list.flatMap Case.nodes, C.fine n) :
    C.Sat env k (runCases r env list) (runCases w env list) := by
  induction list generalizing k with
  | nil => exact .ok
  | cons c rest ih =>
    simp only [List.flatMap_cons, List.mem_append] at fine
    refine .bind (sat_sequence fits (fun st member => fine _ (.inl ?_)) _) fun ended _ => ?_
    · simp [Case.nodes, member]
    · cases ended with
      | normal => exact ih fun n member => fine n (.inr member)
      | break_ | continue_ | return_ => exact .ok

theorem sat_switch {subject : Expr} {list : List Case} (given : C.fine (.expr subject))
    (fine : ∀ n ∈ list.flatMap Case.nodes, C.fine n) :
    C.Sat env k (switch r subject list env) (switch w subject list env) := by
  -- the cases that are run are some of those of the statement
  have among {chosen : List Case} (some_ : ∀ c ∈ chosen, c ∈ list) :
      ∀ n ∈ chosen.flatMap Case.nodes, C.fine n := by
    intro n member
    obtain ⟨c, here, inside⟩ := List.mem_flatMap.1 member
    exact fine n (List.mem_flatMap.2 ⟨c, some_ c here, inside⟩)
  refine .bind (fits.expr subject env given) fun v _ => .inScope ?_
  intro scope
  refine .bind (sat_hoistCases fine) fun _ _ => .bind (sat_findCase fits fine v) ?_
  intro found those
  cases found with
  | some chosen => exact sat_runCases fits (among (those chosen rfl))
  | none => exact sat_runCases fits (among fun c member => (List.dropWhile_sublist _).subset member)

theorem sat_handle {param : Option Pattern} {body : Block}
    (params : ∀ p ∈ param, C.fine (.pattern (.declare .let_) p))
    (fine : ∀ st ∈ body.body, C.fine (.stmt st)) (f : Fault) [Known k f] :
    C.Sat env k (handle r param body env f) (handle w param body env f) := by
  refine .bind (sat_errorValue f) fun v _ => .inScope ?_
  intro scope
  cases param with
  | none => exact sat_statements fits fine
  | some p => exact .bind (fits.bind _ _ _ _ (params p rfl)) fun _ _ => sat_statements fits fine

theorem sat_guarded {b : Block} {handler : Handler} (fine : ∀ st ∈ b.body, C.fine (.stmt st))
    (handles : ∀ n ∈ handler.nodes, C.fine n) :
    C.Sat env k (guarded r b handler env) (guarded w b handler env) := by
  cases handler with
  | nothing => exact sat_block fits fine
  | catch_ span param body =>
    refine .recover (sat_block fits fine) fun f raised => .ite (fun _ => ?_) fun _ => ?_
    · refine sat_handle fits (fun p here => handles _ ?_) (fun st member => handles _ ?_) f
      · simp [Handler.nodes, Option.mem_def.1 here]
      · simp [Handler.nodes, member]
    · exact .rethrow raised

theorem sat_statementForm {st : Stmt} (fine : C.fine (.stmt st)) :
    C.Sat env k (statementForm r st env) (statementForm w st env) := by
  have inside := lawful.child _ fine (by simp [Runs])
  simp only [Node.children] at inside
  cases st with
  | expression span e =>
    exact .bind (fits.expr e env (inside _ (by simp [Stmt.nodes]))) fun _ _ => .ok
  | declaration span d => exact .bind (sat_declarators fits inside) fun _ _ => .ok
  | function | empty | break_ | continue_ => exact .ok
  | block span b => exact sat_block fits fun st member => inside _ (by simp [Stmt.nodes, member])
  | if_ span test yes no =>
    apply Sat.bind (fits.expr test env (inside _ (by simp [Stmt.nodes])))
    intro t _
    refine .ite (fun _ => fits.stmt yes env (inside _ (by simp [Stmt.nodes]))) ?_
    intro _
    cases no with
    | none => exact .ok
    | some no => exact fits.stmt no env (inside _ (by simp [Stmt.nodes]))
  | for_ span init test update body =>
    unfold statementForm
    refine .inScope ?_
    intro scope
    have loop {told : Knowledge} : C.Sat scope told (forLoop r test update body scope r.fuel)
        (forLoop w test update body scope w.fuel) := by
      rw [fits.fuel]
      refine sat_forLoop fits (fun e here => inside _ ?_) (fun e here => inside _ ?_)
        (inside _ (by simp [Stmt.nodes])) _
      · simp [Stmt.nodes, Option.mem_def.1 here]
      · simp [Stmt.nodes, Option.mem_def.1 here]
    cases init with
    | nothing => exact loop
    | declaration d =>
      refine .bind (sat_declarators fits fun n member => inside n ?_) fun _ _ => loop
      have first : n ∈ d.nodes := member
      simp [Stmt.nodes, ForInit.nodes, first]
    | expression e =>
      refine .bind (.discard (fits.expr e scope (inside _ ?_))) fun _ _ => loop
      simp [Stmt.nodes, ForInit.nodes]
  | forEach span mode declared target subject body =>
    have pattern : C.fine (.pattern (eachMode declared) target) := inside _ (by simp [Stmt.nodes])
    exact sat_forEachLoop fits pattern (inside _ (by simp [Stmt.nodes]))
      (inside _ (by simp [Stmt.nodes]))
  | while_ span test body =>
    show C.Sat env k (whileLoop r test body env r.fuel) (whileLoop w test body env w.fuel)
    rw [fits.fuel]
    exact sat_whileLoop fits (inside _ (by simp [Stmt.nodes])) (inside _ (by simp [Stmt.nodes])) _
  | doWhile span body test =>
    show C.Sat env k (doWhileLoop r test body env r.fuel) (doWhileLoop w test body env w.fuel)
    rw [fits.fuel]
    exact sat_doWhileLoop fits (inside _ (by simp [Stmt.nodes])) (inside _ (by simp [Stmt.nodes])) _
  | return_ span value =>
    cases value with
    | none => exact .ok
    | some e => exact .bind (fits.expr e env (inside _ (by simp [Stmt.nodes]))) fun _ _ => .ok
  | throw_ span e =>
    have thrown : C.fine (.expr e) := inside _ (by simp [Stmt.nodes])
    apply Sat.bind (fits.expr e env thrown)
    intro v _
    exact .located (place_expr thrown) (.raise (by simp [Cause.kind]))
  | try_ span b handler finalizer =>
    have main : C.Sat env k (guarded r b handler env) (guarded w b handler env) :=
      sat_guarded fits (fun st member => inside _ (by simp [Stmt.nodes, member]))
        fun n member => inside _ (by simp [Stmt.nodes, member])
    cases finalizer with
    | none => exact main
    | some last =>
      exact .finishing main
        (sat_block fits fun st member => inside _ (by simp [Stmt.nodes, member]))
  | switch span subject list =>
    exact sat_switch fits (inside _ (by simp [Stmt.nodes])) fun n member =>
      inside n (List.mem_cons_of_mem _ member)

theorem sat_statement {st : Stmt} (fine : C.fine (.stmt st)) :
    C.Sat env k (statement r st env) (statement w st env) :=
  .located (place_stmt fine) (sat_statementForm fits fine)

end Fits

end Scriptlet.Contract
