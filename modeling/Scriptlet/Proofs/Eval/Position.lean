import Scriptlet.Eval.Run

/-!
Where function declarations stand.

The functions among statements are declared before the first statement runs, and a declaration does
nothing when its turn comes. So only two orders matter: that of the declarations, and that of the
other statements. Main statement: `statements_functionsFirst`.
-/

namespace Scriptlet

/-- Whether a statement is a function declaration. -/
def Stmt.isFunction : Stmt → Bool
  | .function _ _ => true
  | _ => false

/-- Statements with their function declarations moved to the front. -/
def functionsFirst (body : List Stmt) : List Stmt :=
  body.filter Stmt.isFunction ++ body.filter (!·.isFunction)

namespace Eval

variable {env : ScopeId} {body body' : List Stmt}

theorem hoistFunctions_cons {s : Stmt} (plain : s.isFunction = false) (rest : List Stmt) :
    hoistFunctions env (s :: rest) = hoistFunctions env rest := by
  cases s with
  | function => cases plain
  | _ => rfl

/-- Only function declarations are hoisted. -/
theorem hoistFunctions_filter (body : List Stmt) :
    hoistFunctions env (body.filter Stmt.isFunction) = hoistFunctions env body := by
  induction body with
  | nil => rfl
  | cons s rest ih =>
    cases plain : s.isFunction with
    | false => rw [List.filter_cons_of_neg (by simp [plain]), hoistFunctions_cons plain, ih]
    | true =>
      cases s with
      | function span fn =>
        rw [List.filter_cons_of_pos plain]
        simp only [hoistFunctions, ih]
      | _ => cases plain

/-- A function declaration neither changes the state nor the value so far. -/
theorem sequence_cons {s : Stmt} (function : s.isFunction = true) (fuel : Nat) (last : Value)
    (rest : List Stmt) :
    sequence (recursion (fuel + 1)) env last (s :: rest) =
      sequence (recursion (fuel + 1)) env last rest := by
  cases s with
  | function => rfl
  | _ => cases function

/-- Function declarations can be left out of a sequence. -/
theorem sequence_filter (fuel : Nat) (last : Value) (body : List Stmt) :
    sequence (recursion (fuel + 1)) env last (body.filter (!·.isFunction)) =
      sequence (recursion (fuel + 1)) env last body := by
  induction body generalizing last with
  | nil => rfl
  | cons s rest ih =>
    cases function : s.isFunction with
    | true => rw [List.filter_cons_of_neg (by simp [function]), sequence_cons function, ih]
    | false =>
      rw [List.filter_cons_of_pos (by simp [function])]
      simp only [sequence, ih]

theorem sequence_zero (last : Value) (body : List Stmt) :
    sequence (recursion 0) env last body = if body.isEmpty then pure (.normal last)
      else exhausted := by
  cases body <;> rfl

/-- Statements that have the same function declarations and the same other statements, each in the
same order, run alike. -/
theorem statements_congr (fuel : Nat)
    (functions : body.filter Stmt.isFunction = body'.filter Stmt.isFunction)
    (others : body.filter (!·.isFunction) = body'.filter (!·.isFunction)) :
    statements (recursion fuel) body env = statements (recursion fuel) body' env := by
  have hoisted : hoistFunctions env body = hoistFunctions env body' := by
    rw [← hoistFunctions_filter body, functions, hoistFunctions_filter]
  have run : sequence (recursion fuel) env .undefined body =
      sequence (recursion fuel) env .undefined body' := by
    cases fuel with
    | zero =>
      have same : body.Perm body' := by
        refine (List.filter_append_perm Stmt.isFunction body).symm.trans ?_
        rw [functions, others]
        exact List.filter_append_perm Stmt.isFunction body'
      rw [sequence_zero, sequence_zero, same.isEmpty_eq]
    | succ fuel => rw [← sequence_filter fuel _ body, others, sequence_filter]
  rw [statements, hoisted, run, statements]

end Eval

/-- Function declarations can stand anywhere: whatever the other statements do, moving the
declarations among them to the front changes neither how they end nor the state that they leave. -/
theorem statements_functionsFirst (fuel : Nat) (body : List Stmt) (env : ScopeId) (s : State) :
    Eval.statements (Eval.recursion fuel) (functionsFirst body) env s =
      Eval.statements (Eval.recursion fuel) body env s := by
  have same : Eval.statements (Eval.recursion fuel) (functionsFirst body) env =
      Eval.statements (Eval.recursion fuel) body env := by
    apply Eval.statements_congr
    · simp [functionsFirst, List.filter_append, List.filter_filter]
    · simp [functionsFirst, List.filter_append, List.filter_filter]
  rw [same]

end Scriptlet
