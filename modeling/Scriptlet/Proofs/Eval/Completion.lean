import Scriptlet.Eval.Run
import Scriptlet.Proofs.Layout.Accepted
import Scriptlet.Proofs.Tree.Jump

/-!
How statements end.

Main statement: a statement ends with a jump only if that jump is free in it, whatever the state it
starts in. The step is one lemma for each construct that runs statements; the run is an induction on
fuel.
-/

namespace Scriptlet

/-- The jump that a statement ended with. -/
def Completion.jump? : Completion → Option Jump
  | .normal _ => none
  | .break_ => some .break_
  | .continue_ => some .continue_
  | .return_ _ => some .return_

namespace Eval

open Stmt (HasFree SomeFree)

/-- What holds of every value that a computation may give. -/
structure Gives {α : Type} (m : Eval α) (Q : α → Prop) : Prop where
  intro ::
  ok : ∀ s a t, m s = .ok a t → Q a

namespace Gives

variable {α β : Type} {m : Eval α} {Q : α → Prop}

theorem any : Gives m fun _ => True :=
  ⟨fun _ _ _ _ => trivial⟩

theorem weaken {P : α → Prop} (gives : Gives m P) (weaker : ∀ a, P a → Q a) : Gives m Q :=
  ⟨fun s a t done => weaker a (gives.ok s a t done)⟩

theorem pure {a : α} (here : Q a) : Gives (Pure.pure a : Eval α) Q := by
  constructor
  intro s b t done
  cases done
  exact here

theorem bind {P : α → Prop} {Q : β → Prop} {f : α → Eval β} (first : Gives m P)
    (then_ : ∀ a, P a → Gives (f a) Q) : Gives (m >>= f) Q := by
  constructor
  intro s b t done
  change Eval.bind m f s = _ at done
  unfold Eval.bind at done
  cases made : m s with
  | ok a s' =>
    rw [made] at done
    exact (then_ a (first.ok s a s' made)).ok s' b t done
  | fault e s' =>
    rw [made] at done
    cases done
  | exhausted s' =>
    rw [made] at done
    cases done

theorem ite {c : Prop} [Decidable c] {n : Eval α} (yes : Gives m Q) (no : Gives n Q) :
    Gives (if c then m else n) Q := by
  split
  · exact yes
  · exact no

theorem exhausted : Gives (Eval.exhausted : Eval α) Q := by
  constructor
  intro s a t done
  cases done

theorem raise {c : Cause} : Gives (Eval.raise c : Eval α) Q := by
  constructor
  intro s a t done
  cases done

theorem fault {e : Fault} : Gives (fun s => .fault e s : Eval α) Q := by
  constructor
  intro s a t done
  cases done

theorem located {span : Span} (gives : Gives m Q) : Gives (Eval.located span m) Q := by
  constructor
  intro s a t done
  unfold Eval.located at done
  split at done
  · cases done
    exact gives.ok s _ _ ‹_›
  · cases done
  · cases done

theorem recover {f : Fault → Eval α} (gives : Gives m Q) (handles : ∀ e, Gives (f e) Q) :
    Gives (Eval.recover m f) Q := by
  constructor
  intro s a t done
  unfold Eval.recover at done
  split at done
  · cases done
    exact gives.ok s _ _ ‹_›
  · exact (handles _).ok _ a t done
  · cases done

theorem inScope {kind : ScopeKind} {parent : ScopeId} {body : ScopeId → Eval α}
    (gives : ∀ scope, Gives (body scope) Q) : Gives (Eval.inScope kind parent body) Q := by
  constructor
  intro s a t done
  unfold Eval.inScope Eval.closing at done
  simp only at done
  split at done
  · split at done
    · cases done
      exact (gives _).ok _ _ _ ‹_›
    · cases done
  · split at done <;> cases done
  · cases done

end Gives

/-- An ending whose jump, if any, is among the given ones. -/
def Ends (free : Jump → Prop) (c : Completion) : Prop :=
  ∀ j, c.jump? = some j → free j

variable {free : Jump → Prop}

theorem Ends.normal {v : Value} : Ends free (.normal v) := by
  intro j jumps
  cases jumps

theorem Ends.mono {c : Completion} {more : Jump → Prop} (ends : Ends free c)
    (weaker : ∀ j, free j → more j) : Ends more c :=
  fun j jumps => weaker j (ends j jumps)

/-- Nested statements end with jumps that are free in them. -/
def Jumping (r : Recursion) : Prop :=
  ∀ s env, Gives (r.stmt s env) (Ends s.HasFree)

variable {r : Recursion} {env : ScopeId}

/-! ### Statements in a row -/

theorem sequence_gives (jumping : Jumping r) (last : Value) (body : List Stmt) :
    Gives (sequence r env last body) (Ends (SomeFree body)) := by
  induction body generalizing last with
  | nil => exact .pure .normal
  | cons s rest ih =>
    apply Gives.bind (jumping s env)
    intro c ends
    have here : Ends (SomeFree (s :: rest)) c :=
      ends.mono fun j free => ⟨s, List.mem_cons_self, free⟩
    cases c with
    | normal v =>
      refine (ih _).weaken fun c ends => ends.mono ?_
      rintro j ⟨t, member, free⟩
      exact ⟨t, List.mem_cons_of_mem _ member, free⟩
    | break_ => exact .pure here
    | continue_ => exact .pure here
    | return_ v => exact .pure here

theorem statements_gives (jumping : Jumping r) (body : List Stmt) :
    Gives (statements r body env) (Ends (SomeFree body)) :=
  .bind .any fun _ _ => sequence_gives jumping _ body

theorem block_gives (jumping : Jumping r) (b : Block) :
    Gives (block r b env) (Ends (SomeFree b.body)) :=
  .inScope fun _ => statements_gives jumping b.body

/-! ### Loops -/

/-- What passes a loop whose body lets the given jumps out. -/
def PassesLoop (free : Jump → Prop) (j : Jump) : Prop :=
  j = .return_ ∧ free j

theorem continueWith_gives {c : Completion} {next : Eval Completion} (ends : Ends free c)
    (goesOn : Gives next (Ends (PassesLoop free))) :
    Gives (continueWith c next) (Ends (PassesLoop free)) := by
  cases c with
  | normal v => exact goesOn
  | continue_ => exact goesOn
  | break_ => exact .pure .normal
  | return_ v =>
    refine .pure ?_
    rintro j ⟨⟩
    exact ⟨rfl, ends .return_ rfl⟩

variable {body : Stmt}

theorem forLoop_gives (jumping : Jumping r) (test change : Option Expr) (fuel : Nat) :
    Gives (forLoop r test change body env fuel) (Ends (PassesLoop body.HasFree)) := by
  induction fuel with
  | zero => exact .exhausted
  | succ fuel ih =>
    apply Gives.bind .any
    intro goes _
    split
    · refine .bind (jumping body env) fun c ends => continueWith_gives ends ?_
      cases change with
      | some e => exact .bind .any fun _ _ => ih
      | none => exact ih
    · exact .pure .normal

theorem whileLoop_gives (jumping : Jumping r) (test : Expr) (fuel : Nat) :
    Gives (whileLoop r test body env fuel) (Ends (PassesLoop body.HasFree)) := by
  induction fuel with
  | zero => exact .exhausted
  | succ fuel ih =>
    apply Gives.bind .any
    intro t _
    split
    · exact .bind (jumping body env) fun c ends => continueWith_gives ends ih
    · exact .pure .normal

theorem doWhileLoop_gives (jumping : Jumping r) (test : Expr) (fuel : Nat) :
    Gives (doWhileLoop r test body env fuel) (Ends (PassesLoop body.HasFree)) := by
  induction fuel with
  | zero => exact .exhausted
  | succ fuel ih =>
    refine .bind (jumping body env) fun c ends => continueWith_gives ends (.bind .any fun t _ => ?_)
    split
    · exact ih
    · exact .pure .normal

theorem visit_gives (jumping : Jumping r) (mode : BindMode) (target : Pattern) (item : Value) :
    Gives (visit r mode target body env item) (Ends body.HasFree) :=
  .inScope fun scope => .bind .any fun _ _ => jumping body scope

theorem visitAll_gives {round : Value → Eval Completion}
    (rounds : ∀ item, Gives (round item) (Ends free))
    (items : List Value) : Gives (visitAll round items) (Ends (PassesLoop free)) := by
  induction items with
  | nil => exact .pure .normal
  | cons item rest ih => exact .bind (rounds item) fun c ends => continueWith_gives ends ih

theorem visitElements_gives {round : Value → Eval Completion}
    (rounds : ∀ item, Gives (round item) (Ends free)) (ref : ArrayRef) (index fuel : Nat) :
    Gives (visitElements round ref index fuel) (Ends (PassesLoop free)) := by
  induction fuel generalizing index with
  | zero => exact .exhausted
  | succ fuel ih =>
    apply Gives.bind .any
    intro item _
    cases item with
    | none => exact .pure .normal
    | some item => exact .bind (rounds item) fun c ends => continueWith_gives ends (ih _)

theorem forEach_gives (jumping : Jumping r) (mode : EachMode) (bindMode : BindMode)
    (target : Pattern)
    (subject : Expr) :
    Gives (forEach r mode bindMode target subject body env) (Ends (PassesLoop body.HasFree)) := by
  have rounds : ∀ item, Gives (visit r bindMode target body env item) (Ends body.HasFree) :=
    visit_gives jumping bindMode target
  apply Gives.bind .any
  intro v _
  simp only
  split
  · exact visitElements_gives rounds _ _ _
  · exact .bind .any fun _ _ => visitAll_gives rounds _
  · exact .bind .any fun _ _ => visitAll_gives rounds _

/-! ### Choices and handlers -/

theorem findCase_gives (subject : Value) (cases : List Case) :
    Gives (findCase r subject env cases) fun found => ∀ chosen ∈ found, chosen ⊆ cases := by
  induction cases with
  | nil => exact .pure (by simp)
  | cons c rest ih =>
    have later :
        Gives (findCase r subject env rest) fun found => ∀ chosen ∈ found, chosen ⊆ c :: rest :=
      ih.weaken fun found inside chosen there => List.subset_cons_of_subset c (inside chosen there)
    unfold findCase
    split
    · exact later
    · apply Gives.bind .any
      intro v _
      split
      · exact .pure (by simp)
      · exact later

/-- A switch takes up a `break`, and lets everything else through. -/
theorem runCases_gives (jumping : Jumping r) (cases : List Case) :
    Gives (runCases r env cases)
      (Ends fun j => j ≠ .break_ ∧ SomeFree (cases.flatMap fun c => c.body) j) := by
  induction cases with
  | nil => exact .pure .normal
  | cons c rest ih =>
    apply Gives.bind (sequence_gives jumping _ c.body)
    intro done ends
    have here (j : Jump) (other : j ≠ .break_) (jumps : done.jump? = some j) :
        j ≠ .break_ ∧ SomeFree ((c :: rest).flatMap fun c => c.body) j := by
      obtain ⟨s, member, free⟩ := ends j jumps
      exact ⟨other, s, List.mem_flatMap.2 ⟨c, List.mem_cons_self, member⟩, free⟩
    cases done with
    | normal v =>
      refine ih.weaken fun c' ends => ends.mono ?_
      rintro j ⟨other, s, member, free⟩
      exact ⟨other, s, by simp [List.flatMap_cons, member], free⟩
    | break_ => exact .pure .normal
    | continue_ => exact .pure fun j jumps => here j (by cases jumps; nofun) jumps
    | return_ v => exact .pure fun j jumps => here j (by cases jumps; nofun) jumps

theorem switch_gives (jumping : Jumping r) (subject : Expr) (cases : List Case) :
    Gives (switch r subject cases env)
      (Ends fun j => j ≠ .break_ ∧ SomeFree (cases.flatMap fun c => c.body) j) := by
  have some_of {chosen : List Case} (inside : chosen ⊆ cases) (scope : ScopeId) :
      Gives (runCases r scope chosen)
        (Ends fun j => j ≠ .break_ ∧ SomeFree (cases.flatMap fun c => c.body) j) := by
    refine (runCases_gives jumping chosen).weaken fun c ends => ends.mono ?_
    rintro j ⟨other, s, member, free⟩
    obtain ⟨c, there, member⟩ := List.mem_flatMap.1 member
    exact ⟨other, s, List.mem_flatMap.2 ⟨c, inside there, member⟩, free⟩
  apply Gives.bind .any
  intro v _
  refine .inScope fun scope => .bind .any fun _ _ => .bind (findCase_gives v cases) ?_
  intro found inside
  cases found with
  | some chosen => exact some_of (inside chosen rfl) scope
  | none => exact some_of (List.dropWhile_subset _) scope

theorem handle_gives (jumping : Jumping r) (param : Option Pattern) (b : Block) (f : Fault) :
    Gives (handle r param b env f) (Ends (SomeFree b.body)) := by
  apply Gives.bind .any
  intro v _
  refine .inScope fun scope => ?_
  cases param with
  | some p => exact .bind .any fun _ _ => statements_gives jumping b.body
  | none => exact statements_gives jumping b.body

theorem guarded_gives (jumping : Jumping r) (b : Block) (handler : Handler) :
    Gives (guarded r b handler env) (Ends (SomeFree (b.body ++ handler.body))) := by
  have first : ∀ j, SomeFree b.body j → SomeFree (b.body ++ handler.body) j := by
    rintro j ⟨s, member, free⟩
    exact ⟨s, List.mem_append_left _ member, free⟩
  have blocks : Gives (block r b env) (Ends (SomeFree (b.body ++ handler.body))) :=
    (block_gives jumping b).weaken fun c ends => ends.mono first
  cases handler with
  | nothing => exact blocks
  | catch_ span param body =>
    refine .recover blocks fun f => .ite ?_ .fault
    refine (handle_gives jumping param body f).weaken fun c ends => ends.mono ?_
    rintro j ⟨s, member, free⟩
    exact ⟨s, List.mem_append_right _ member, free⟩

/-- A jump of the last part overrides that of the first. -/
theorem finishing_gives {m last : Eval Completion} (first : Gives m (Ends free))
    (second : Gives last (Ends free)) : Gives (finishing m last) (Ends free) := by
  constructor
  intro s c t done
  unfold finishing at done
  split at done
  · cases done
  · split at done
    · cases done
      exact first.ok _ _ _ ‹_›
    · exact second.ok _ _ _ done
  · split at done
    · cases done
    · exact second.ok _ _ _ done

/-! ### Statements -/

theorem hasFree_loop {s : Stmt} {c : Completion} (loop : s.takesUp .return_ = false)
    (inside : s.inner = [body]) (ends : Ends (PassesLoop body.HasFree) c) : Ends s.HasFree c := by
  intro j jumps
  obtain ⟨rfl, jump, free⟩ := ends j jumps
  exact ⟨jump, .inside loop (by simp [inside]) free⟩

theorem hasFree_some {s : Stmt} {c : Completion} {inside : List Stmt}
    (open_ : ∀ j, s.takesUp j = false)
    (same : ∀ t ∈ inside, t ∈ s.inner) (ends : Ends (SomeFree inside) c) : Ends s.HasFree c := by
  intro j jumps
  obtain ⟨t, member, jump, free⟩ := ends j jumps
  exact ⟨jump, .inside (open_ j) (same t member) free⟩

theorem statementForm_gives (jumping : Jumping r) (s : Stmt) :
    Gives (statementForm r s env) (Ends s.HasFree) := by
  cases s with
  | expression span e => exact .bind .any fun _ _ => .pure .normal
  | declaration span d => exact .bind .any fun _ _ => .pure .normal
  | function span fn => exact .pure .normal
  | block span b =>
    exact (block_gives jumping b).weaken fun c => hasFree_some (fun _ => rfl) fun _ => id
  | empty span => exact .pure .normal
  | if_ span test yes no =>
    apply Gives.bind .any
    intro t _
    have nested (branch : Stmt) (member : branch ∈ (Stmt.if_ span test yes no).inner) :
        Gives (r.stmt branch env) (Ends (Stmt.if_ span test yes no).HasFree) := by
      refine (jumping branch env).weaken fun c ends => ends.mono ?_
      rintro j ⟨jump, free⟩
      exact ⟨jump, .inside rfl member free⟩
    split
    · exact nested yes List.mem_cons_self
    · cases no with
      | some no => exact nested no (List.mem_cons_of_mem _ (List.mem_singleton_self no))
      | none => exact .pure .normal
  | for_ span init test change body =>
    have loops (scope : ScopeId) : Gives (forLoop r test change body scope r.fuel)
        (Ends (Stmt.for_ span init test change body).HasFree) :=
      (forLoop_gives jumping test change r.fuel).weaken fun c => hasFree_loop rfl rfl
    unfold statementForm
    refine .inScope fun scope => ?_
    cases init with
    | nothing => exact loops scope
    | declaration d => exact .bind .any fun _ _ => loops scope
    | expression e => exact .bind .any fun _ _ => loops scope
  | forEach span mode declared target subject body =>
    exact (forEach_gives jumping mode _ target subject).weaken fun c => hasFree_loop rfl rfl
  | while_ span test body =>
    exact (whileLoop_gives jumping test r.fuel).weaken fun c => hasFree_loop rfl rfl
  | doWhile span body test =>
    exact (doWhileLoop_gives jumping test r.fuel).weaken fun c => hasFree_loop rfl rfl
  | break_ span =>
    refine .pure ?_
    rintro j ⟨⟩
    exact ⟨_, .here rfl⟩
  | continue_ span =>
    refine .pure ?_
    rintro j ⟨⟩
    exact ⟨_, .here rfl⟩
  | return_ span value =>
    have leaves (v : Value) : Ends (Stmt.return_ span value).HasFree (.return_ v) := by
      rintro j ⟨⟩
      exact ⟨_, .here rfl⟩
    cases value with
    | none => exact .pure (leaves _)
    | some e => exact .bind .any fun v _ => .pure (leaves v)
  | throw_ span e => exact .bind .any fun v _ => .located .raise
  | try_ span b handler finalizer =>
    have tries :
        Gives (guarded r b handler env) (Ends (Stmt.try_ span b handler finalizer).HasFree) := by
      refine (guarded_gives jumping b handler).weaken fun c => hasFree_some (fun _ => rfl) ?_
      intro t member
      rw [Stmt.inner, ← List.append_assoc]
      exact List.mem_append_left _ member
    cases finalizer with
    | none => exact tries
    | some last =>
      refine finishing_gives tries ((block_gives jumping last).weaken fun c => ?_)
      refine hasFree_some (fun _ => rfl) fun t member => ?_
      simp [Stmt.inner, member]
  | switch span subject cases =>
    refine (switch_gives jumping subject cases).weaken fun c ends j jumps => ?_
    obtain ⟨other, t, member, jump, free⟩ := ends j jumps
    exact ⟨jump, .inside (by simpa [Stmt.takesUp] using other) member free⟩

theorem statement_gives (jumping : Jumping r) (s : Stmt) :
    Gives (statement r s env) (Ends s.HasFree) :=
  .located (statementForm_gives jumping s)

theorem recursion_jumping (fuel : Nat) : Jumping (recursion fuel) := by
  induction fuel with
  | zero => exact fun _ _ => .exhausted
  | succ fuel ih => exact fun s _ => statement_gives ih s

end Eval

/-! ### Returns of whole programs -/

/-- Leaving returns outside of functions in, and refusing the first of them afterwards. -/
theorem parseProgram_checked (source : String) (file : Option String) :
    parseProgram source ⟨file, false⟩ = (parseProgram source ⟨file, true⟩).bind fun p =>
      (firstFreeReturn? p.body).elim (.ok p) fun span => .error ⟨.strayReturn, span, source⟩ := by
  unfold parseProgram
  cases Grammar.script.parse .program source with
  | exhausted => rfl
  | refused trail => rfl
  | matched nodes cursor trail =>
    cases nodes with
    | nil => rfl
    | cons n others =>
      cases others with
      | cons => rfl
      | nil =>
        simp only
        cases Tree.statements n with
        | error e => rfl
        | ok body =>
          simp only [Bool.false_eq_true, if_false, if_true, Except.bind]
          cases firstFreeReturn? body with
          | none => rfl
          | some span => rfl

section Checked

variable {source : String} {file : Option String} {p : Program}

theorem parseProgram_checked_iff :
    parseProgram source ⟨file, false⟩ = .ok p ↔
      parseProgram source ⟨file, true⟩ = .ok p ∧ ¬Stmt.SomeFree p.body .return_ := by
  rw [parseProgram_checked]
  cases parsed : parseProgram source ⟨file, true⟩ with
  | error e => simp [Except.bind]
  | ok q =>
    have formed := parseProgram_formed parsed
    have laid := formed.rows (List.mem_singleton_self _)
    rw [Except.bind]
    cases found : firstFreeReturn? q.body with
    | none =>
      constructor
      · rintro ⟨⟩
        exact ⟨rfl, Stmt.firstFreeReturn?_none found⟩
      · rintro ⟨⟨⟩, _⟩
        rfl
    | some span =>
      obtain ⟨first, ⟨free, _⟩, _⟩ := Stmt.firstFreeReturn?_first laid found
      constructor
      · rintro ⟨⟩
      · rintro ⟨⟨⟩, none⟩
        obtain ⟨s, member, free⟩ := free
        exact absurd ⟨s, member, first, free⟩ none

/-- The return that a program is refused for is the first one. -/
theorem parseProgram_stray (accepted : parseProgram source ⟨file, true⟩ = .ok p)
    (stray : Stmt.SomeFree p.body .return_) :
    ∃ first, Stmt.FirstReturn p.body first ∧
      parseProgram source ⟨file, false⟩ = .error ⟨.strayReturn, first.span, source⟩ := by
  have laid := (parseProgram_formed accepted).rows (List.mem_singleton_self _)
  rw [parseProgram_checked, accepted, Except.bind]
  cases found : firstFreeReturn? p.body with
  | none => exact absurd stray (Stmt.firstFreeReturn?_none found)
  | some span =>
    obtain ⟨first, first_, rfl⟩ := Stmt.firstFreeReturn?_first laid found
    exact ⟨first, first_, rfl⟩

theorem statements_ne_return (accepted : parseProgram source ⟨file, false⟩ = .ok p) (fuel : Nat)
    {env : ScopeId} {s t : State} {c : Completion}
    (done : Eval.statements (Eval.recursion fuel) p.body env s = .ok c t) (v : Value) :
    c ≠ .return_ v := by
  rintro rfl
  have ends := (Eval.statements_gives (Eval.recursion_jumping fuel) p.body).ok s _ t done
  exact (parseProgram_checked_iff.1 accepted).2 (ends .return_ rfl)

end Checked

/-- Statements end as their syntax says, and the check for returns agrees with that: a statement
ends with a jump only if the jump is free in it; a program is accepted with the check exactly if it
is accepted without it and has no free return, with the same tree; one that has is refused for the
first of its free returns, and what is refused without the check is refused for the same reason with
it; and no accepted program ends with a return. -/
theorem jumps_sound :
    (∀ fuel st env s c t, Eval.statement (Eval.recursion fuel) st env s = .ok c t →
      ∀ j, c.jump? = some j → st.HasFree j) ∧
    (∀ source file p, parseProgram source ⟨file, false⟩ = .ok p ↔
      parseProgram source ⟨file, true⟩ = .ok p ∧ ¬Stmt.SomeFree p.body .return_) ∧
    (∀ source file p, parseProgram source ⟨file, true⟩ = .ok p → Stmt.SomeFree p.body .return_ →
      ∃ first, Stmt.FirstReturn p.body first ∧
        parseProgram source ⟨file, false⟩ = .error ⟨.strayReturn, first.span, source⟩) ∧
    (∀ source file e, parseProgram source ⟨file, true⟩ = .error e →
      parseProgram source ⟨file, false⟩ = .error e) ∧
    ∀ source file p, parseProgram source ⟨file, false⟩ = .ok p →
      ∀ fuel s c t, Eval.statements (Eval.recursion fuel) p.body Arena.root s = .ok c t →
        ∀ v, c ≠ .return_ v := by
  refine ⟨?_, ?_, ?_, ?_, ?_⟩
  · intro fuel st env s c t done
    exact (Eval.statement_gives (Eval.recursion_jumping fuel) st).ok s c t done
  · intro source file p
    exact parseProgram_checked_iff
  · intro source file p accepted stray
    exact parseProgram_stray accepted stray
  · intro source file e refused
    rw [parseProgram_checked, refused]
    rfl
  · intro source file p accepted fuel s c t done
    exact statements_ne_return accepted fuel done

/-- The first return of this text belongs to a function; the second one, in a loop, is free. -/
theorem jumps_sound_stray :
    ∃ p first, parseProgram "x => { return x }; for (;;) { return 2 }" ⟨none, true⟩ = .ok p ∧
      Stmt.FirstReturn p.body first ∧
      parseProgram "x => { return x }; for (;;) { return 2 }" ⟨none, false⟩ =
        .error ⟨.strayReturn, first.span, "x => { return x }; for (;;) { return 2 }"⟩ := by
  have left : (parseProgram "x => { return x }; for (;;) { return 2 }" ⟨none, true⟩).toOption.any
      (fun p => (firstFreeReturn? p.body).isSome) = true := by
    decide +kernel
  obtain ⟨p, accepted, found⟩ := exists_accepted left
  have stray : Stmt.SomeFree p.body .return_ := by
    by_contra none
    have checked := (jumps_sound.2.1 _ _ _).2 ⟨accepted, none⟩
    rw [parseProgram_checked, accepted, Except.bind] at checked
    obtain ⟨span, found⟩ := Option.isSome_iff_exists.1 found
    rw [found] at checked
    cases checked
  obtain ⟨first, is_first, refused⟩ := jumps_sound.2.2.1 _ _ _ accepted stray
  exact ⟨p, first, accepted, is_first, refused⟩

end Scriptlet
