import Scriptlet.Proofs.Eval.Executable
import Scriptlet.Proofs.Host.World
import Scriptlet.Proofs.Layout.Accepted

/-!
Accepted programs can be run.

Main statement: whatever accepted programs a session has run, an evaluation fails for want of a rule
exactly if a plain assignment is evaluated whose target has a default value.
-/

namespace Scriptlet

/-- What a host can ask for that only has source texts: running an accepted program, and using the
functions that such programs made. -/
inductive Task.FromText : {α : Type} → Task α → Prop where
  | program {text : String} {options : ParseOptions} {p : Program} :
      parseProgram text options = .ok p → FromText (.program p)
  | call (callee receiver : Value) (args : List Value) : FromText (.call callee receiver args)
  | construct (callee : Value) (args : List Value) : FromText (.construct callee args)

theorem Task.FromText.sane {α : Type} {task : Task α} (given : task.FromText) :
    ∀ n ∈ task.nodes, n.Sane := by
  cases given with
  | program accepted => exact List.forall_mem_map.2 (parseProgram_sane accepted)
  | call | construct => simp [Task.nodes]

/-- All script functions of a world are sane. -/
def World.Sane (w : World) : Prop :=
  ∀ fn η realm, w.heap.Closure fn η realm → (Node.function fn).Sane

namespace World.Sane

variable {w w' : World}

theorem within {α : Type} {i : Nat} {m : Eval α} (sane : w.Sane)
    (ends : ∀ s t, w.state? i = some s → (execution False fun _ => False).sound s → (m s).EndsIn t →
      (execution False fun _ => False).sound t) : (w.within i m).2.Sane := by
  rcases w.within_cases i m with same | ⟨session, s, t, found, there, ended, left⟩
  · rwa [same]
  · have start : (execution False fun _ => False).sound s := by
      obtain ⟨_, -, rfl⟩ := state?_eq there
      exact sane
    rw [left]
    exact ends s t there start ended

theorem lends {h : Heap} {sessions : Array Session} {console : List String} (sane : w.Sane)
    (lends : w.heap.Lends h) : World.Sane { heap := h, sessions := sessions, console := console } :=
  fun fn η realm there => sane fn η realm (lends fn η realm there)

theorem step (sane : w.Sane) (step : w.Step (fun _ task => task.FromText) w') : w'.Sane := by
  cases step with
  | openSession o pure =>
    have lends := (Session.lending_prepare pure).run w.heap
    obtain ⟨globals, host, methods, heap, made, ⟨c, same⟩ | ⟨session, -, -, -, same⟩⟩ :=
      w.openSession_cases o
    · rw [made] at lends
      rw [same]
      exact sane.lends lends
    · rw [made] at lends
      rw [same]
      exact sane.lends lends
  | ask i fuel task given _ =>
    refine sane.within fun s t _ sound ended => ?_
    have starts : (execution False fun _ => False).Starts task s :=
      ⟨sound, fun _ _ => trivial, given.sane⟩
    exact (Contract.endsIn_run starts ended).1
  | declare i kind name v =>
    refine sane.within fun s t _ sound ended => ?_
    have sat : (execution False fun _ => False).Sat Arena.root Set.univ _ _ :=
      .onScopes (Arena.editing_declareOwn kind Arena.root name v)
    exact ((sat.ends sound trivial subset_rfl).endsIn ended).1
  | build i b pure =>
    refine sane.within ?_
    rintro s t _ sound (⟨_, ⟨⟩⟩ | ⟨_, ⟨⟩⟩) fn η realm there
    exact sound fn η realm ((Blueprint.lending_build b pure).run s.heap fn η realm there)
  | takeConsole => exact sane

theorem reachable (reachable : World.Reachable (fun _ task => task.FromText) w) : w.Sane := by
  induction reachable with
  | refl =>
    rintro fn η realm ⟨f, member, -⟩
    simp at member
  | tail _ step ih => exact ih.step step

end World.Sane

/-- Whatever accepted programs were run before, all parts of an accepted program have a rule but
plain assignments to targets with default values, and a run of it fails for want of a rule exactly
if it evaluates one of these. -/
theorem executes_iff {w : World} {i : Nat} {s : State} {α : Type} {task : Task α}
    (reachable : World.Reachable (fun _ task => task.FromText) w) (there : w.state? i = some s)
    (given : task.FromText) (fuel : Nat) :
    (∀ n ∈ task.nodes, n.Sane) ∧ (task.Executes fuel s ↔ task.Undefaulted fuel s) := by
  have closures : ∀ fn η realm, s.heap.Closure fn η realm → (Node.function fn).Sane := by
    have sane := World.Sane.reachable reachable
    obtain ⟨_, -, rfl⟩ := World.state?_eq there
    exact sane
  exact ⟨given.sane, task.executes_iff_undefaulted given.sane closures fuel⟩

/-- A target that is itself an assignment in parentheses is let through and cannot be assigned
to. -/
theorem executes_iff_nested :
    ∃ (w : World) (s : State) (p : Program),
      World.Reachable (fun _ task => task.FromText) w ∧ w.state? 0 = some s ∧
      parseProgram "let a; (a = 1) = 2" {} = .ok p ∧
      ¬(Task.program p).Executes 20 s ∧ ¬(Task.program p).Undefaulted 20 s := by
  have fails : ((World.openSession {} { standard := false }).2.2.state? 0).any (fun s =>
      (parseProgram "let a; (a = 1) = 2" {}).toOption.any fun p =>
        ((Task.program p).run 20 s).isUnsupported) = true := by
    decide +kernel
  obtain ⟨s, there, fails⟩ := (Option.any_eq_true ..).1 fails
  obtain ⟨p, accepted, fails⟩ := (Option.any_eq_true ..).1 fails
  have accepted : parseProgram "let a; (a = 1) = 2" {} = .ok p := by
    revert accepted
    generalize parseProgram "let a; (a = 1) = 2" {} = parsed
    intro accepted
    cases parsed with
    | error e => cases accepted
    | ok q =>
      cases accepted
      rfl
  have world : World.Reachable (fun _ task => task.FromText)
      (World.openSession {} { standard := false }).2.2 :=
    .single (.openSession { standard := false } rfl)
  have stuck : ¬(Task.program p).Executes 20 s := by
    intro executes
    rw [executes.own] at fails
    cases fails
  refine ⟨_, s, p, world, there, accepted, stuck, fun undefaulted => stuck ?_⟩
  exact (executes_iff world there (.program accepted) 20).2.2 undefaulted

end Scriptlet
