import Scriptlet.Proofs.Shift.Expression
import Scriptlet.Tree.Binding
import Scriptlet.Tree.Statement

/-!
Functions, patterns and statements that stand further behind.
-/

namespace Scriptlet.Tree

open Grammar (Rule)

variable (d : Nat) (span : Span) (parts : List Part)

/-! ### Patterns -/

theorem isRest_shift (p : Pattern) : isRest (p.shift d) = isRest p := by
  cases p <;> rfl

theorem checkRestLast_shift : ∀ ps : List Pattern,
    checkRestLast (ps.map (Pattern.shift d)) = (checkRestLast ps).shift d id
  | [] | [_] => rfl
  | p :: q :: rest => by
    have later := checkRestLast_shift (q :: rest)
    simp only [List.map_cons] at later ⊢
    simp only [checkRestLast, isRest_shift, Pattern.shift_span, later]
    exact ite_shift rfl rfl

theorem bindingElement_shift : Shifts bindingElement parts := by
  intro d span
  match parts with
  | [] | _ :: _ :: _ :: _ => rfl
  | [target] =>
    simp only [shiftParts, List.map_cons, List.map_nil, bindingElement, pattern_shift]
    exact bind_shift fun _ => rfl
  | [target, value] =>
    simp only [shiftParts, List.map_cons, List.map_nil, bindingElement, pattern_shift, expr_shift]
    exact bind_shift fun _ => bind_shift fun _ => rfl

theorem restElement_shift : Shifts restElement parts := by
  intro d span
  match parts with
  | [] | _ :: _ :: _ => rfl
  | [target] =>
    simp only [shiftParts, List.map_cons, List.map_nil, restElement, pattern_shift]
    exact bind_shift fun _ => rfl

theorem arrayBindingSlot_shift : Shifts arrayBindingSlot parts := by
  intro d span
  match parts with
  | [] | _ :: _ :: _ => rfl
  | [p] =>
    simp only [shiftParts, List.map_cons, List.map_nil, arrayBindingSlot, pattern_shift]
    exact bind_shift fun _ => rfl

theorem slotPattern_shift (p : Part) :
    slotPattern (p.shift d) = (slotPattern p).shift d (Option.map (Pattern.shift d)) := by
  refine bind_shift fun a => ?_
  cases a with
  | bindingSlot q => cases q <;> rfl
  | _ => rfl

theorem dropLastElision_shift (ps : List (Option Pattern)) :
    dropLastElision (ps.map (Option.map (Pattern.shift d))) =
      (dropLastElision ps).map (Option.map (Pattern.shift d)) := by
  unfold dropLastElision
  rw [List.getLast?_map]
  cases ps.getLast? with
  | none => rfl
  | some p => cases p <;> simp

theorem arrayBinding_shift : Shifts arrayBinding parts := by
  intro d span
  unfold arrayBinding
  rw [each_shift (slotPattern_shift d)]
  refine bind_shift fun slots => ?_
  have targets : ((dropLastElision slots).map (Option.map (Pattern.shift d))).filterMap id =
      ((dropLastElision slots).filterMap id).map (Pattern.shift d) := by
    rw [List.filterMap_map, List.map_filterMap]
    rfl
  simp only [dropLastElision_shift, targets, checkRestLast_shift]
  exact bind_shift fun _ => by simp [Piece.shift, Pattern.shift, shiftElements_eq]

theorem objectBindingProperty_shift : Shifts objectBindingProperty parts := by
  intro d span
  match parts with
  | [] | [_] | _ :: _ :: _ :: _ => rfl
  | [key, value] =>
    simp only [shiftParts, List.map_cons, List.map_nil, objectBindingProperty, key_shift,
      pattern_shift]
    exact bind_shift fun _ => bind_shift fun _ => rfl

theorem shorthandProperty_shift (p : Pattern) :
    shorthandProperty (span.shift d) (p.shift d) =
      (shorthandProperty span p).shift d (PatternProperty.shift d) := by
  cases p with
  | withDefault s target value => cases target <;> rfl
  | _ => rfl

/-- What the members of an object pattern come to, shifted. -/
def shiftMade (d : Nat) (made : List PatternProperty × Option Pattern) :
    List PatternProperty × Option Pattern :=
  (shiftProperties d made.1, shiftPattern? d made.2)

theorem bindingMembers_shift :
    bindingMembers (shiftParts d parts) = (bindingMembers parts).shift d (shiftMade d) := by
  induction parts with
  | nil => rfl
  | cons p rest ih =>
    refine bind_shift fun a => ?_
    cases a with
    | bindingProperty q =>
      change (bindingMembers (shiftParts d rest) >>= _) = _
      rw [ih]
      exact bind_shift fun _ => rfl
    | _ =>
      rw [pattern_shift]
      refine bind_shift fun q => ?_
      cases q with
      | rest s target =>
        cases target with
        | identifier s name => cases rest <;> rfl
        | _ => rfl
      | _ =>
        change (shorthandProperty (p.span.shift d) (Pattern.shift d _) >>= _) = _
        rw [shorthandProperty_shift]
        refine bind_shift fun _ => ?_
        change (bindingMembers (shiftParts d rest) >>= _) = _
        rw [ih]
        exact bind_shift fun _ => rfl

theorem objectBinding_shift : Shifts objectBinding parts := by
  intro d span
  unfold objectBinding
  rw [bindingMembers_shift]
  exact bind_shift fun _ => rfl

/-! ### Functions -/

theorem parameterList_shift :
    Tree.parameters (shiftParts d parts) = (Tree.parameters parts).shift d (Piece.shift d) := by
  unfold Tree.parameters
  rw [each_shift pattern_shift]
  refine bind_shift fun params => ?_
  rw [checkRestLast_shift]
  exact bind_shift fun _ => by simp [Piece.shift, shiftPatterns_eq]

theorem functionBlock_shift : Shifts functionBlock parts := by
  intro d span
  unfold functionBlock
  rw [each_shift stmt_shift]
  exact bind_shift fun _ => by simp [Piece.shift, Block.shift, shiftStmts_eq]

theorem function_shift (kind : FunctionKind) :
    function kind (span.shift d) (shiftParts d parts) =
      (function kind span parts).shift d (Function.shift d) := by
  match parts with
  | [] | [_] | _ :: _ :: _ :: _ :: _ => rfl
  | [name, params, body] =>
    simp only [shiftParts, List.map_cons, List.map_nil, function, name_shift, parameters_shift,
      block_shift]
    refine bind_shift fun _ => bind_shift fun _ => bind_shift fun _ => ?_
    simp [Function.shift, FunctionBody.shift, shiftPatterns_eq]
  | [params, body] =>
    simp only [shiftParts, List.map_cons, List.map_nil, function, parameters_shift, block_shift]
    refine bind_shift fun _ => bind_shift fun _ => ?_
    simp [Function.shift, FunctionBody.shift, shiftPatterns_eq]

theorem drop_shift (n : Nat) : (shiftParts d parts).drop n = shiftParts d (parts.drop n) := by
  simp [shiftParts]

theorem functionDeclaration_shift : Shifts functionDeclaration parts := by
  intro d span
  unfold functionDeclaration
  rw [drop_shift, function_shift]
  exact bind_shift fun _ => rfl

theorem functionExpression_shift : Shifts functionExpression parts := by
  intro d span
  unfold functionExpression
  rw [drop_shift, function_shift]
  exact bind_shift fun _ => rfl

theorem arrowParameters_shift : Shifts arrowParameters parts := by
  intro d span
  match parts with
  | [] | _ :: _ :: _ => rfl
  | [p] =>
    refine bind_shift fun a => ?_
    cases a with
    | parameters => rfl
    | _ =>
      rw [pattern_shift]
      exact bind_shift fun _ => rfl

theorem arrowBody_shift : Shifts arrowBody parts := by
  intro d span
  match parts with
  | [] | _ :: _ :: _ => rfl
  | [p] =>
    refine bind_shift fun a => ?_
    cases a with
    | block => rfl
    | _ =>
      rw [expr_shift]
      exact bind_shift fun _ => rfl

theorem arrowFunction_shift : Shifts arrowFunction parts := by
  intro d span
  match parts with
  | [] | [_] | _ :: _ :: _ :: _ => rfl
  | [params, body] =>
    simp only [shiftParts, List.map_cons, List.map_nil, arrowFunction, parameters_shift,
      piece_shift]
    refine bind_shift fun _ => bind_shift fun a => ?_
    cases a with
    | functionBody body => simp [Piece.shift, Expr.shift, Function.shift, shiftPatterns_eq]
    | _ => rfl

/-! ### Declarations -/

theorem declarationKind_shift : Shifts declarationKind parts := by
  intro d span
  match parts with
  | [] => rfl
  | ⟨rule, s, m⟩ :: rest =>
    cases rule with
    | keyword k => cases k <;> cases rest <;> rfl
    | _ => cases rest <;> rfl

theorem declKind_shift (p : Part) : (p.shift d).declKind = p.declKind.shift d id := by
  refine bind_shift fun a => ?_
  cases a <;> rfl

theorem declarator_shift : Shifts declarator parts := by
  intro d span
  match parts with
  | [] | _ :: _ :: _ :: _ => rfl
  | [target] =>
    simp only [shiftParts, List.map_cons, List.map_nil, declarator, pattern_shift]
    exact bind_shift fun _ => rfl
  | [target, init] =>
    simp only [shiftParts, List.map_cons, List.map_nil, declarator, pattern_shift, expr_shift]
    exact bind_shift fun _ => bind_shift fun _ => rfl

theorem checkedDeclarator_shift (kind : DeclKind) (p : Part) :
    checkedDeclarator kind (p.shift d) =
      (checkedDeclarator kind p).shift d (Declarator.shift d) := by
  refine bind_shift fun a => ?_
  cases a with
  | declarator x =>
    obtain ⟨target, init, s⟩ := x
    cases init <;> exact ite_shift rfl rfl
  | _ => rfl

theorem variableDeclaration_shift : Shifts variableDeclaration parts := by
  intro d span
  match parts with
  | [] => rfl
  | kind :: rest =>
    have later (kind : DeclKind) := each_shift (checkedDeclarator_shift d kind) rest
    simp only [shiftParts, List.map_cons] at later ⊢
    simp only [variableDeclaration, declKind_shift]
    refine bind_shift fun kind => ?_
    rw [id, later]
    exact bind_shift fun _ => by simp [Piece.shift, Declaration.shift, shiftDeclarators_eq]

theorem declaration_shift (p : Part) :
    (p.shift d).declaration = p.declaration.shift d (Declaration.shift d) := by
  refine bind_shift fun a => ?_
  cases a <;> rfl

theorem variableStatement_shift : Shifts variableStatement parts := by
  intro d span
  match parts with
  | [] | _ :: _ :: _ => rfl
  | [p] =>
    simp only [shiftParts, List.map_cons, List.map_nil, variableStatement, declaration_shift]
    exact bind_shift fun _ => rfl

/-! ### Branches and loops -/

theorem ifStatement_shift : Shifts ifStatement parts := by
  intro d span
  match parts with
  | [] | [_] | [_, _] | [_, _, _, _] | _ :: _ :: _ :: _ :: _ :: _ :: _ => rfl
  | [word, test, yes] =>
    simp only [shiftParts, List.map_cons, List.map_nil, ifStatement, expr_shift, stmt_shift]
    exact bind_shift fun _ => bind_shift fun _ => rfl
  | [word, test, yes, word', no] =>
    simp only [shiftParts, List.map_cons, List.map_nil, ifStatement, expr_shift, stmt_shift]
    exact bind_shift fun _ => bind_shift fun _ => bind_shift fun _ => rfl

theorem forInit_shift : Shifts forInit parts := by
  intro d span
  match parts with
  | [] | _ :: _ :: _ => rfl
  | [p] =>
    refine bind_shift fun a => ?_
    cases a with
    | declaration => rfl
    | _ =>
      rw [expr_shift]
      exact bind_shift fun _ => rfl

theorem forTest_shift : Shifts forTest parts := by
  intro d span
  match parts with
  | [] | _ :: _ :: _ => rfl
  | [p] =>
    simp only [shiftParts, List.map_cons, List.map_nil, forTest, expr_shift]
    exact bind_shift fun _ => rfl

theorem forUpdate_shift : Shifts forUpdate parts := by
  intro d span
  match parts with
  | [] | _ :: _ :: _ => rfl
  | [p] =>
    simp only [shiftParts, List.map_cons, List.map_nil, forUpdate, expr_shift]
    exact bind_shift fun _ => rfl

theorem forClauses_shift (init : ForInit) (test change : Option Expr) :
    forClauses (span.shift d) (init.shift d) (shiftExpr? d test) (shiftExpr? d change)
      (shiftParts d parts) =
      (forClauses span init test change parts).shift d (Piece.shift d) := by
  induction parts generalizing init test change with
  | nil => rfl
  | cons p rest ih =>
    refine bind_shift fun a => ?_
    cases a with
    | forInit init => exact ih init test change
    | forTest e => exact ih init (some e) change
    | forUpdate e => exact ih init test (some e)
    | _ =>
      rw [stmt_shift]
      exact bind_shift fun _ => rfl

theorem forStatement_shift : Shifts forStatement parts := by
  intro d span
  unfold forStatement
  rw [drop_shift]
  exact forClauses_shift d span (parts.drop 1) .nothing none none

theorem forDeclaration_shift : Shifts forDeclaration parts := by
  intro d span
  match parts with
  | [] | [_] | _ :: _ :: _ :: _ => rfl
  | [kind, target] =>
    simp only [shiftParts, List.map_cons, List.map_nil, forDeclaration, declKind_shift,
      pattern_shift]
    exact bind_shift fun _ => bind_shift fun _ => rfl

theorem forEachLeft_shift : Shifts forEachLeft parts := by
  intro d span
  match parts with
  | [] | _ :: _ :: _ => rfl
  | [p] =>
    refine bind_shift fun a => ?_
    cases a with
    | eachTarget => rfl
    | _ =>
      rw [expr_shift]
      refine bind_shift fun e => ?_
      rw [toPattern_shift]
      exact bind_shift fun _ => rfl

theorem forEachStatement_shift : Shifts forEachStatement parts := by
  intro d span
  match parts with
  | [] | [_] | [_, _] | [_, _, _] | [_, _, _, _] | _ :: _ :: _ :: _ :: _ :: _ :: _ => rfl
  | [_, left, word, subject, body] =>
    simp only [shiftParts, List.map_cons, List.map_nil, forEachStatement, piece_shift, expr_shift,
      stmt_shift]
    refine bind_shift fun a => ?_
    cases a with
    | eachTarget => exact bind_shift fun _ => bind_shift fun _ => rfl
    | _ => rfl

theorem whileStatement_shift : Shifts whileStatement parts := by
  intro d span
  match parts with
  | [] | [_] | [_, _] | _ :: _ :: _ :: _ :: _ => rfl
  | [_, test, body] =>
    simp only [shiftParts, List.map_cons, List.map_nil, whileStatement, expr_shift, stmt_shift]
    exact bind_shift fun _ => bind_shift fun _ => rfl

theorem doWhileStatement_shift : Shifts doWhileStatement parts := by
  intro d span
  match parts with
  | [] | [_] | [_, _] | [_, _, _] | _ :: _ :: _ :: _ :: _ :: _ => rfl
  | [_, body, _, test] =>
    simp only [shiftParts, List.map_cons, List.map_nil, doWhileStatement, expr_shift, stmt_shift]
    exact bind_shift fun _ => bind_shift fun _ => rfl

/-! ### Jumps and clauses -/

theorem returnStatement_shift : Shifts returnStatement parts := by
  intro d span
  match parts with
  | [] | [_] | _ :: _ :: _ :: _ => rfl
  | [_, value] =>
    simp only [shiftParts, List.map_cons, List.map_nil, returnStatement, expr_shift]
    exact bind_shift fun _ => rfl

theorem throwStatement_shift : Shifts throwStatement parts := by
  intro d span
  match parts with
  | [] | [_] | _ :: _ :: _ :: _ => rfl
  | [_, value] =>
    simp only [shiftParts, List.map_cons, List.map_nil, throwStatement, expr_shift]
    exact bind_shift fun _ => rfl

theorem catchClause_shift : Shifts catchClause parts := by
  intro d span
  match parts with
  | [] | [_] | _ :: _ :: _ :: _ :: _ => rfl
  | [_, body] =>
    simp only [shiftParts, List.map_cons, List.map_nil, catchClause, block_shift]
    exact bind_shift fun _ => rfl
  | [_, param, body] =>
    simp only [shiftParts, List.map_cons, List.map_nil, catchClause, pattern_shift, block_shift]
    exact bind_shift fun _ => bind_shift fun _ => rfl

theorem finallyClause_shift : Shifts finallyClause parts := by
  intro d span
  match parts with
  | [] | [_] | _ :: _ :: _ :: _ => rfl
  | [_, body] =>
    simp only [shiftParts, List.map_cons, List.map_nil, finallyClause, block_shift]
    exact bind_shift fun _ => rfl

theorem tryClauses_shift (handler : Handler) (finalizer : Option Block) :
    tryClauses (handler.shift d) (shiftBlock? d finalizer) (shiftParts d parts) =
      (tryClauses handler finalizer parts).shift d fun (h, b) => (h.shift d, shiftBlock? d b) := by
  induction parts generalizing handler finalizer with
  | nil => rfl
  | cons p rest ih =>
    refine bind_shift fun a => ?_
    cases a with
    | handler h => exact ih h finalizer
    | finalizer b => exact ih handler (some b)
    | _ => rfl

theorem tryStatement_shift : Shifts tryStatement parts := by
  intro d span
  match parts with
  | [] | [_] => rfl
  | _ :: block :: clauses =>
    have later := tryClauses_shift d clauses .nothing none
    simp only [shiftParts, List.map_cons] at later ⊢
    simp only [tryStatement, block_shift]
    refine bind_shift fun _ => ?_
    change (tryClauses (Handler.shift d .nothing) (shiftBlock? d none) _ >>= _) = _
    rw [later]
    refine bind_shift fun made => ?_
    obtain ⟨handler, finalizer⟩ := made
    cases handler <;> cases finalizer <;> rfl

theorem switchCase_shift : Shifts switchCase parts := by
  intro d span
  match parts with
  | [] => rfl
  | ⟨rule, s, m⟩ :: rest =>
    have default (rest : List Part) : (do
          return Piece.case
            ⟨none, ← each Part.stmt (shiftParts d rest), span.shift d⟩ : Build Piece) =
        Build.shift d (Piece.shift d) (do
          return Piece.case ⟨none, ← each Part.stmt rest, span⟩) := by
      rw [each_shift stmt_shift]
      exact bind_shift fun _ => by simp [Piece.shift, Case.shift, shiftStmts_eq, shiftExpr?]
    cases rule with
    | keyword k =>
      cases k with
      | case_ =>
        cases rest with
        | nil => exact default []
        | cons test rest =>
          change (do
            let test ← (test.shift d).expr
            return Piece.case ⟨some test, ← each Part.stmt (shiftParts d rest), span.shift d⟩) = _
          rw [expr_shift, each_shift stmt_shift]
          refine bind_shift fun _ => bind_shift fun _ => ?_
          simp [Piece.shift, Case.shift, shiftStmts_eq, shiftExpr?]
      | _ => exact default rest
    | _ => exact default rest

theorem case_shift (p : Part) : (p.shift d).case = p.case.shift d (Case.shift d) := by
  refine bind_shift fun a => ?_
  cases a <;> rfl

theorem switchStatement_shift : Shifts switchStatement parts := by
  intro d span
  match parts with
  | [] | [_] => rfl
  | _ :: subject :: cases =>
    have later := each_shift (case_shift d) cases
    simp only [shiftParts, List.map_cons] at later ⊢
    simp only [switchStatement, expr_shift]
    refine bind_shift fun _ => ?_
    rw [later]
    exact bind_shift fun _ => by simp [Piece.shift, Stmt.shift, shiftCases_eq]

theorem expressionStatement_shift : Shifts expressionStatement parts := by
  intro d span
  match parts with
  | [] | _ :: _ :: _ => rfl
  | [p] =>
    simp only [shiftParts, List.map_cons, List.map_nil, expressionStatement, expr_shift]
    exact bind_shift fun _ => rfl

theorem program_shift : program (shiftParts d parts) = (program parts).shift d (Piece.shift d) := by
  unfold program
  have kept : (shiftParts d parts).filter (·.rule != .endOfInput) =
      shiftParts d (parts.filter (·.rule != .endOfInput)) := by
    rw [shiftParts, List.filter_map]
    rfl
  rw [kept, each_shift stmt_shift]
  exact bind_shift fun _ => by simp [Piece.shift, shiftStmts_eq]

end Scriptlet.Tree
