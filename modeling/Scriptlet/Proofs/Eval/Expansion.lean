import Scriptlet.Eval.Run
import Scriptlet.Proofs.Eval.Monad

/-!
Assignments with an operator.

An assignment with an operator reads its name, works out the new value and writes it. Main
statement: `assignment_expands`, by which it does all that the assignment written out does, in the
same order. Only the places of faults differ.
-/

namespace Scriptlet

/-- A fault without its place. -/
def Fault.unplaced (f : Fault) : Fault :=
  { f with span := none }

/-- An outcome in which a fault has no place. -/
def Outcome.unplaced {α : Type} : Outcome α → Outcome α
  | .fault f s => .fault f.unplaced s
  | o => o

theorem Fault.unplaced_located (f : Fault) (span : Span) :
    (f.located span).unplaced = f.unplaced := by
  unfold Fault.located
  split
  · rfl
  · rfl
  · rfl

namespace Eval

variable {α β : Type} {m m' : Eval α}

/-- Two computations do the same, apart from the places of faults. -/
def Alike (m m' : Eval α) : Prop :=
  ∀ s, (m s).unplaced = (m' s).unplaced

namespace Alike

theorem refl (m : Eval α) : Alike m m :=
  fun _ => rfl

theorem symm (alike : Alike m m') : Alike m' m :=
  fun s => (alike s).symm

theorem trans {m'' : Eval α} (first : Alike m m') (second : Alike m' m'') : Alike m m'' :=
  fun s => (first s).trans (second s)

theorem located (m : Eval α) (span : Span) : Alike (Eval.located span m) m := by
  intro s
  unfold Eval.located
  cases m s with
  | fault f t => exact congrArg (Outcome.fault · t) (f.unplaced_located span)
  | ok | exhausted => rfl

theorem bind {f f' : α → Eval β} (first : Alike m m') (then_ : ∀ a, Alike (f a) (f' a)) :
    Alike (m >>= f) (m' >>= f') := by
  intro s
  have same := first s
  change (Eval.bind m f s).unplaced = (Eval.bind m' f' s).unplaced
  unfold Eval.bind
  cases one : m s with
  | ok a t =>
    cases other : m' s with
    | ok a' t' =>
      rw [one, other] at same
      cases same
      exact then_ a t
    | fault | exhausted => rw [one, other] at same; cases same
  | fault g t =>
    cases other : m' s with
    | fault g' t' =>
      rw [one, other] at same
      simp only [Outcome.unplaced, Outcome.fault.injEq] at same ⊢
      exact same
    | ok | exhausted => rw [one, other] at same; cases same
  | exhausted t =>
    cases other : m' s with
    | exhausted t' =>
      rw [one, other] at same
      cases same
      rfl
    | ok | fault => rw [one, other] at same; cases same

end Alike

variable {fuel : Nat} {x : String} {e : Expr} {env : ScopeId}

/-- An expression is evaluated like its form. -/
theorem alike_expr (e : Expr) :
    Alike ((recursion (fuel + 1)).expr e env) (expressionForm (recursion fuel) e env) :=
  .located _ e.span

theorem alike_name (p q : Span) :
    Alike ((recursion (fuel + 1)).expr (.identifier p ⟨x, q⟩) env) (readName x env) :=
  alike_expr _

/-- What an assignment with an arithmetic operator does. -/
def compoundSteps (fuel : Nat) (op : ArithOp) (x : String) (e : Expr) (env : ScopeId) :
    Eval Value := do
  let current ← readName x env
  let right ← (recursion fuel).expr e env
  let v ← arith (recursion fuel) op current right
  onScopes (Arena.write env x v)
  return v

/-- What an assignment without an operator does. A function without a name gets that of the
target. -/
def plainSteps (fuel : Nat) (x : String) (e : Expr) (env : ScopeId) : Eval Value := do
  let v ← named (recursion fuel) e env (some x)
  onScopes (Arena.write env x v)
  return v

/-- What an assignment with a logical operator does. -/
def logicalSteps (fuel : Nat) (op : LogicalOp) (x : String) (e : Expr) (env : ScopeId) :
    Eval Value := do
  let current ← readName x env
  if shortCircuits op current then return current else plainSteps fuel x e env

theorem alike_compound (op : ArithOp) (p q n : Span) :
    Alike ((recursion (fuel + 1)).expr (.assign p (.compound op) (.identifier q ⟨x, n⟩) e) env)
      (compoundSteps fuel op x e env) := by
  refine (alike_expr _).trans (.bind (.located _ n) fun current => ?_)
  refine .bind (.refl _) fun right => .bind (.refl _) fun v => ?_
  exact .bind (.located _ n) fun _ => .refl _

theorem alike_plain (p q n : Span) :
    Alike ((recursion (fuel + 1)).expr (.assign p .plain (.identifier q ⟨x, n⟩) e) env)
      (plainSteps fuel x e env) := by
  refine (alike_expr _).trans (.bind (.refl (named (recursion fuel) e env (some x))) fun v => ?_)
  exact .bind (.located _ n) fun _ => .refl _

theorem alike_logical (op : LogicalOp) (p q n : Span) :
    Alike ((recursion (fuel + 1)).expr (.assign p (.logical op) (.identifier q ⟨x, n⟩) e) env)
      (logicalSteps fuel op x e env) := by
  refine (alike_expr _).trans (.bind (.located _ n) fun current => ?_)
  split
  · exact .refl _
  · exact .bind (.refl _) fun v => .bind (.located _ n) fun _ => .refl _

/-- The name is read and the operator applied inside of the value that is assigned. -/
theorem alike_compound_expanded (op : ArithOp) (p q n b l m : Span) :
    Alike ((recursion (fuel + 3)).expr (.assign p .plain (.identifier q ⟨x, n⟩)
        (.binary b (.arith op) (.identifier l ⟨x, m⟩) e)) env)
      (compoundSteps (fuel + 1) op x e env) := by
  have operation : Alike
    (named (recursion (fuel + 2)) (.binary b (.arith op) (.identifier l ⟨x, m⟩) e) env (some x))
      (do
        let current ← readName x env
        let right ← (recursion (fuel + 1)).expr e env
        arith (recursion (fuel + 1)) op current right) :=
    (alike_expr _).trans (.bind (alike_name l m) fun _ => .refl _)
  have steps :=
    Alike.bind operation fun v => Alike.refl (do onScopes (Arena.write env x v); return v)
  rw [bind_assoc] at steps
  simp only [bind_assoc] at steps
  exact (alike_plain p q n).trans steps

/-- The assignment is what the logical operator goes on with. -/
theorem alike_logical_expanded (op : LogicalOp) (p l m a q n : Span) :
    Alike ((recursion (fuel + 2)).expr (.logical p op (.identifier l ⟨x, m⟩)
        (.assign a .plain (.identifier q ⟨x, n⟩) e)) env)
      (logicalSteps fuel op x e env) := by
  refine (alike_expr _).trans (.bind (alike_name l m) fun current => ?_)
  split
  · exact .refl _
  · exact alike_plain a q n

end Eval

open Eval

/-- An assignment with an operator to a name, whether bound, constant or unbound, ends like the
assignment written out, with the same value or cause and in the same state. The value of the
expression is worked out with the same fuel in both, and a function without a name gets one in both
or in neither. -/
theorem assignment_expands (x : String) (e : Expr) (env : ScopeId) (s : State) :
    (∀ (op : ArithOp) (fuel : Nat) (p q n p' q' n' b l m : Span),
      ((recursion (fuel + 2)).expr
        (.assign p (.compound op) (.identifier q ⟨x, n⟩) e) env s).unplaced =
        ((recursion (fuel + 3)).expr (.assign p' .plain (.identifier q' ⟨x, n'⟩)
          (.binary b (.arith op) (.identifier l ⟨x, m⟩) e)) env s).unplaced) ∧
    ∀ (op : LogicalOp) (fuel : Nat) (p q n p' l m a q' n' : Span),
      ((recursion fuel).expr (.assign p (.logical op) (.identifier q ⟨x, n⟩) e) env s).unplaced =
        ((recursion (fuel + 1)).expr (.logical p' op (.identifier l ⟨x, m⟩)
          (.assign a .plain (.identifier q' ⟨x, n'⟩) e)) env s).unplaced := by
  constructor
  · intro op fuel p q n p' q' n' b l m
    exact (alike_compound op p q n).trans (alike_compound_expanded op p' q' n' b l m).symm s
  · intro op fuel p q n p' l m a q' n'
    cases fuel with
    | zero => rfl
    | succ fuel =>
      exact (alike_logical op p q n).trans (alike_logical_expanded op p' l m a q' n').symm s

end Scriptlet
