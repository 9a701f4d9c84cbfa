import Scriptlet.Proofs.Eval.Whole
import Scriptlet.Proofs.Tree.Shape

/-!
Which constructs cannot be run.

Main statement: in a run of sane parts, an evaluation fails for want of a rule exactly if a plain
assignment is evaluated whose target has a default value.
-/

namespace Scriptlet

open Eval

/-- A fault of a construct that cannot be run. -/
def Fault.isUnsupported (f : Fault) : Bool :=
  match f.cause with
  | .unsupported _ => true
  | _ => false

def Outcome.isUnsupported {α : Type} : Outcome α → Bool
  | .fault f _ => f.isUnsupported
  | .ok _ _ | .exhausted _ => false

def Outcome.isExhausted {α : Type} : Outcome α → Bool
  | .exhausted _ => true
  | .ok _ _ | .fault _ _ => false

namespace Task

variable {α : Type}

/-- The evaluation of a plain assignment to a target with a default value. -/
def isDefaulted : Task α → Bool
  | .expr e _ => e.isDefaulted
  | _ => false

/-- No evaluation of a run fails for want of a rule. -/
def Executes (fuel : Nat) (task : Task α) (s : State) : Prop :=
  task.Each (fun _ _ o => o.isUnsupported = false) fuel s

/-- No plain assignment to a target with a default value is evaluated in a run, as long as its fuel
lasts. -/
def Undefaulted (fuel : Nat) (task : Task α) (s : State) : Prop :=
  task.Each (fun _ nested o => nested.isDefaulted = true → o.isExhausted = true) fuel s

theorem isDefaulted_of_nodes {task : Task α} {e : Expr} (member : Node.expr e ∈ task.nodes)
    (defaulted : e.isDefaulted = true) : task.isDefaulted = true := by
  cases task with
  | expr e' env =>
    simp only [nodes, List.mem_singleton, Node.expr.injEq] at member
    rwa [member] at defaulted
  | stmt | bind | body | call | construct => simp [nodes] at member
  | program p => simp [nodes] at member

/-- A plain assignment to a target with a default value fails at the target. -/
theorem step_defaulted {task : Task α} (defaulted : task.isDefaulted = true) (r : Recursion)
    (s : State) :
    ∃ span, task.step r s = .fault ⟨.unsupported "AssignmentPattern", some span⟩ s := by
  cases task with
  | expr e env =>
    simp only [isDefaulted] at defaulted
    unfold Expr.isDefaulted at defaulted
    split at defaulted
    · exact ⟨_, rfl⟩
    · cases defaulted
  | stmt | bind | body | call | construct | program => cases defaulted

end Task

/-- All closures are made of sane functions. If it is strict, then plain assignments to targets with
default values are given up on, and nothing else lacks a rule. -/
def execution (strict : Prop) (cut : State → Prop) : Contract where
  sound s := ∀ fn η realm, s.heap.Closure fn η realm → (Node.function fn).Sane
  live _ _ := True
  kept _ _ := True
  fine := Node.Sane
  stops e := strict ∧ e.isDefaulted = true
  cut := cut
  raised f := strict → f.isUnsupported = false

namespace Execution

variable {strict : Prop} {cut : State → Prop}

theorem runs_or {n : Node} (sane : n.Sane) (runs : (execution strict cut).Runs n) :
    n.executable = true ∨ ¬strict := by
  rcases sane.rule with rule | defaulted
  · exact .inl rule
  · refine .inr ?_
    intro strict
    cases n with
    | expr e => exact runs e rfl ⟨strict, defaulted⟩
    | stmt | pattern | function => cases defaulted

instance : (execution strict cut).Indifferent :=
  ⟨fun _ => rfl⟩

instance : (execution strict cut).Lawful := by
  refine .of_closures (fun _ => .rfl) (fun _ _ => trivial) (fun _ _ => trivial)
    (fun _ sane _ => sane.inside) ?assigned ?scripted ?located ?stuck
  case assigned =>
    intro e stops
    have defaulted := stops.2
    unfold Expr.isDefaulted at defaulted
    split at defaulted
    · exact ⟨_, _, _, _, rfl⟩
    · cases defaulted
  case scripted =>
    intro c kind _
    cases c with
    | unsupported => exact absurd rfl kind
    | unbound | redeclared | constantAssigned | type | range | thrown | parse => rfl
  case located =>
    intro f span _ raised strict
    have same := raised strict
    unfold Fault.isUnsupported at *
    rwa [f.cause_located]
  case stuck =>
    intro n fine runs
    rcases runs_or fine runs with rule | loose
    · exact .inl rule
    · exact .inr fun label strict => absurd strict loose

instance : (execution False fun _ => False).Complete where
  runs _ stops := stops.1
  cut _ cut := cut
  unbounded := id

/-- Where no target with a default value is assigned to, everything has a rule. -/
theorem guards_strict (u v : State) :
    (execution True (· = u)).Guards
      (.watch (fun _ nested o => nested.isDefaulted = true → o.isExhausted = true) u)
      (.watch (fun _ _ o => o.isUnsupported = false) v) := by
  intro α task m m' s _ twins agree
  by_cases defaulted : task.isDefaulted = true
  · cases twins with
    | exhausted =>
      rw [Guard.watch_of_holds u fun _ => rfl, Guard.watch_of_holds v rfl]
      exact .same _ trivial
    | step r w =>
      obtain ⟨span, fails⟩ := Task.step_defaulted defaulted r s
      rw [Guard.watch_of_fails]
      · exact .cut u _ rfl
      · intro exhausted
        have done := exhausted defaulted
        rw [fails] at done
        cases done
  · have runs : ∀ n ∈ task.nodes, (execution True (· = u)).Runs n := by
      rintro _ member e rfl ⟨-, stops⟩
      exact defaulted (Task.isDefaulted_of_nodes member stops)
    have agree := agree runs False.elim
    rw [Guard.watch_of_holds u fun absurd => (defaulted absurd).elim]
    rcases agree.cases with ⟨w, cut, done⟩ | ⟨same, ends⟩
    · rw [done]
      exact .cut w _ cut
    · rw [Guard.watch_of_holds, same]
      · exact .same _ ends
      · rw [same]
        cases done : m s with
        | fault f t =>
          rw [done] at ends
          exact ends.2.2.1 trivial
        | ok | exhausted => rfl

/-- Where everything has a rule, no target with a default value is assigned to. -/
theorem guards_loose (u v : State) :
    (execution False (· = v)).Guards (.watch (fun _ _ o => o.isUnsupported = false) v)
      (.watch (fun _ nested o => nested.isDefaulted = true → o.isExhausted = true) u) := by
  intro α task m m' s _ twins agree
  have agree := agree (fun _ _ _ _ stops => stops.1) False.elim
  by_cases supported : (m s).isUnsupported = false
  · rw [Guard.watch_of_holds v supported]
    rcases agree.cases with ⟨w, cut, done⟩ | ⟨same, ends⟩
    · rw [done]
      exact .cut w _ cut
    · rw [Guard.watch_of_holds, same]
      · exact .same _ ends
      · intro defaulted
        rw [same]
        cases twins with
        | exhausted => rfl
        | step r w =>
          obtain ⟨span, fails⟩ := Task.step_defaulted defaulted r s
          rw [fails] at supported
          cases supported
  · rw [Guard.watch_of_fails v supported]
    exact .cut v _ rfl

end Execution

namespace Task

variable {α : Type} {task : Task α} {s : State}

/-- An evaluation fails for want of a rule exactly if a target with a default value is assigned
to. -/
theorem executes_iff_undefaulted (sane : ∀ n ∈ task.nodes, n.Sane)
    (closures : ∀ fn η realm, s.heap.Closure fn η realm → (Node.function fn).Sane)
    (fuel : Nat) : task.Executes fuel s ↔ task.Undefaulted fuel s := by
  have starts (strict : Prop) (cut : State → Prop) : (execution strict cut).Starts task s :=
    ⟨closures, fun _ _ => trivial, sane⟩
  constructor
  · intro executes u
    exact Contract.run_eq_of_guards (fun _ _ cut => cut) (Execution.guards_loose u)
      (fun v => starts False (· = v)) executes
  · intro undefaulted v
    exact Contract.run_eq_of_guards (fun _ _ cut => cut) (fun u => Execution.guards_strict u v)
      (fun u => starts True (· = u)) undefaulted

end Task

end Scriptlet
