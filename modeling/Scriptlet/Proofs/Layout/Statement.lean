import Scriptlet.Proofs.Layout.Part
import Scriptlet.Tree.Statement

/-!
Statements are laid out if their parts are.
-/

namespace Scriptlet.Tree

open Grammar (Rule)
open Construct (Formed Laid laid_nil laid_cons laid_single)

variable {source : String} {p : Part} {parts : List Part} {span : Span} {low high : Nat}

/-! ### Declarations -/

theorem declarationKind_placed (site : Site source span parts) :
    Placed source span (declarationKind span parts) := by
  unfold declarationKind
  split
  · exact .pure trivial
  · exact .pure trivial
  · exact .pure trivial
  · exact .unexpected site.within

theorem declKind_placed (part : p.Laid source) : Places source p.declKind fun _ => True := by
  apply Places.bind part.placed
  intro piece _
  cases piece with
  | declKind k => exact .pure trivial
  | _ => exact .unexpected part.within

theorem declarator_placed (site : Site source span parts) :
    Placed source span (declarator span parts) := by
  unfold declarator
  split
  · obtain ⟨before, part, after⟩ := site.laid
    refine .bind (pattern_placed part) fun q here => .pure ?_
    exact (Formed.of_row (c := .declarator ⟨q, none, span⟩) site.within rfl trivial rfl
      (here.widen before after)).laid
  · obtain ⟨before, first, gap, second, after⟩ := site.laid
    apply Places.bind (pattern_placed first)
    intro q one
    refine .bind (expr_placed second) fun e two => .pure ?_
    exact (Formed.of_row (c := .declarator ⟨q, some e, span⟩) site.within rfl trivial rfl
      ((one.append gap two).widen before after)).laid
  · exact .unexpected site.within

/-- A constant has a value. -/
theorem checkedDeclarator_placed (kind : DeclKind) (part : p.Laid source) :
    Places source (checkedDeclarator kind p) fun d =>
      Laid source p.span.start [.declarator d] p.span.stop ∧
      (kind = .const → d.init.isSome = true) := by
  apply Places.bind part.placed
  intro piece here
  cases piece with
  | declarator d =>
    obtain ⟨_, formed, _⟩ := laid_single.1 here
    simp only
    split
    · exact .fails formed.within.inside
    · rename_i valued
      refine .pure ⟨here, fun const => ?_⟩
      simpa [const, Option.isSome_iff_ne_none] using valued
  | _ => exact .unexpected part.within

theorem variableDeclaration_placed (site : Site source span parts) :
    Placed source span (variableDeclaration span parts) := by
  unfold variableDeclaration
  split
  · obtain ⟨before, word, after⟩ := site.laid
    apply Places.bind (declKind_placed word)
    intro kind _
    have row := each_single (fun _ part => (checkedDeclarator_placed kind part).weaken
      fun _ here => here.1) after
    have valued := each_all (fun _ part => (checkedDeclarator_placed kind part).weaken
      fun _ here => here.2) after
    refine .bind (row.and valued) fun ds there => .pure ?_
    refine (Formed.of_row (c := .declaration ⟨kind, ds, span⟩) site.within ?_ trivial rfl
      (there.1.widen (Nat.le_trans before word.within.ordered) (Nat.le_refl _))).laid
    cases kind with
    | const => simpa [Construct.isShaped] using fun d member => there.2 d member rfl
    | var | let_ => rfl
  · exact .unexpected site.within

theorem declaration_placed (part : p.Laid source) :
    Places source p.declaration fun d => Laid source p.span.start [.declaration d] p.span.stop := by
  apply Places.bind part.placed
  intro piece here
  cases piece with
  | declaration d => exact .pure here
  | _ => exact .unexpected part.within

theorem variableStatement_placed (site : Site source span parts) :
    Placed source span (variableStatement span parts) := by
  unfold variableStatement
  split
  · obtain ⟨before, part, after⟩ := site.laid
    refine .bind (declaration_placed part) fun d here => .pure ?_
    exact (Formed.of_row (c := .stmt (.declaration span d)) site.within rfl trivial rfl
      (here.widen before after)).laid
  · exact .unexpected site.within

/-! ### Branches and loops -/

theorem ifStatement_placed (site : Site source span parts) :
    Placed source span (ifStatement span parts) := by
  unfold ifStatement
  split
  · obtain ⟨before, word, gap, first, gap', second, after⟩ := site.laid
    have start := Nat.le_trans before (Nat.le_trans word.within.ordered gap)
    apply Places.bind (expr_placed first)
    intro test one
    refine .bind (stmt_placed second) fun yes two => .pure ?_
    exact (Formed.of_row (c := .stmt (.if_ span test yes none)) site.within rfl trivial rfl
      ((one.append gap' two).widen start after)).laid
  · obtain ⟨before, word, gap, first, gap₁, second, gap₂, word', gap₃, third, after⟩ := site.laid
    have start := Nat.le_trans before (Nat.le_trans word.within.ordered gap)
    have between := Nat.le_trans gap₂ (Nat.le_trans word'.within.ordered gap₃)
    apply Places.bind (expr_placed first)
    intro test one
    apply Places.bind (stmt_placed second)
    intro yes two
    refine .bind (stmt_placed third) fun no three => .pure ?_
    exact (Formed.of_row (c := .stmt (.if_ span test yes (some no))) site.within rfl trivial rfl
      (((one.append gap₁ two).append between three).widen start after)).laid
  · exact .unexpected site.within

theorem forInit_placed (site : Site source span parts) :
    Placed source span (forInit span parts) := by
  unfold forInit
  split
  · rename_i p
    obtain ⟨before, part, after⟩ := site.laid
    have single : Placed source span (do return .forInit (.expression (← p.expr))) :=
      .bind (expr_placed part) fun e here => .pure (here.widen before after)
    apply Places.bind part.placed
    intro piece here
    cases piece with
    | declaration d => exact .pure (here.widen before after)
    | _ => exact single
  · exact .unexpected site.within

theorem forTest_placed (site : Site source span parts) :
    Placed source span (forTest span parts) := by
  unfold forTest
  split
  · obtain ⟨before, part, after⟩ := site.laid
    exact .bind (expr_placed part) fun e here => .pure (here.widen before after)
  · exact .unexpected site.within

theorem forUpdate_placed (site : Site source span parts) :
    Placed source span (forUpdate span parts) := by
  unfold forUpdate
  split
  · obtain ⟨before, part, after⟩ := site.laid
    exact .bind (expr_placed part) fun e here => .pure (here.widen before after)
  · exact .unexpected site.within

theorem forClauses_placed {init : ForInit} {test change : Option Expr}
    (first : Laid source span.start init.constructs span.stop)
    (tests : Laid source span.start (test.toList.map .expr) span.stop)
    (changes : Laid source span.start (change.toList.map .expr) span.stop)
    (site : Site source span parts) :
    Placed source span (forClauses span init test change parts) := by
  obtain ⟨within, laid⟩ := site
  -- The clauses seen so far lie anywhere in the statement; those ahead start further and further
  -- on.
  induction parts generalizing init test change with
  | nil => exact .unexpected within
  | cons p rest ih =>
    obtain ⟨before, part, after⟩ := laid
    have ahead := after.from_le (Nat.le_trans before part.within.ordered)
    have last : Placed source span (do
        let body ← p.stmt
        return .stmt (.for_ span init test change body)) := by
      refine .bind (stmt_placed part) fun body here => .pure ?_
      refine
        (Formed.of_rows (c := .stmt (.for_ span init test change body)) within rfl trivial ?_).laid
      simpa [Construct.rows, Stmt.rows] using
        ⟨first, tests, changes, here.widen before after.le⟩
    apply Places.bind part.placed
    intro piece here
    cases piece with
    | forInit init => exact ih (here.widen before after.le) tests changes ahead
    | forTest e => exact ih first (here.widen before after.le) changes ahead
    | forUpdate e => exact ih first tests (here.widen before after.le) ahead
    | _ => exact last

theorem forStatement_placed (site : Site source span parts) :
    Placed source span (forStatement span parts) := by
  have empty : Laid source span.start [] span.stop := .nil site.within.ordered
  exact forClauses_placed empty empty empty ⟨site.within, site.laid.drop 1⟩

theorem forDeclaration_placed (site : Site source span parts) :
    Placed source span (forDeclaration span parts) := by
  unfold forDeclaration
  split
  · obtain ⟨before, word, gap, part, after⟩ := site.laid
    apply Places.bind (declKind_placed word)
    intro kind _
    refine .bind (pattern_placed part) fun q here => .pure ?_
    exact here.widen (Nat.le_trans before (Nat.le_trans word.within.ordered gap)) after
  · exact .unexpected site.within

theorem forEachLeft_placed (site : Site source span parts) :
    Placed source span (forEachLeft span parts) := by
  unfold forEachLeft
  split
  · rename_i p
    obtain ⟨before, part, after⟩ := site.laid
    have existing : Placed source span (do return .eachTarget none (← toPattern (← p.expr))) := by
      apply Places.bind (expr_placed part)
      intro e here
      obtain ⟨start, formed, stop⟩ := laid_single.1 here
      refine .bind (toPattern_placed formed) fun target takes => .pure ?_
      exact takes.laid.widen (Nat.le_trans before start) (Nat.le_trans stop after)
    apply Places.bind part.placed
    intro piece here
    cases piece with
    | eachTarget declared target => exact .pure (here.widen before after)
    | _ => exact existing
  · exact .unexpected site.within

theorem forEachStatement_placed (site : Site source span parts) :
    Placed source span (forEachStatement span parts) := by
  unfold forEachStatement
  split
  · obtain ⟨before, word, gap, first, gap₁, word', gap₂, second, gap₃, third, after⟩ := site.laid
    have start := Nat.le_trans before (Nat.le_trans word.within.ordered gap)
    have between := Nat.le_trans gap₁ (Nat.le_trans word'.within.ordered gap₂)
    apply Places.bind first.placed
    intro piece one
    cases piece with
    | eachTarget declared target =>
      apply Places.bind (expr_placed second)
      intro subject two
      refine .bind (stmt_placed third) fun body three => .pure ?_
      have row := ((Laid.append one between two).append gap₃ three).widen start after
      exact (Formed.of_row (c := .stmt (.forEach span _ declared target subject body)) site.within
        rfl trivial
        rfl row).laid
    | _ => exact .unexpected first.within
  · exact .unexpected site.within

theorem whileStatement_placed (site : Site source span parts) :
    Placed source span (whileStatement span parts) := by
  unfold whileStatement
  split
  · obtain ⟨before, word, gap, first, gap', second, after⟩ := site.laid
    have start := Nat.le_trans before (Nat.le_trans word.within.ordered gap)
    apply Places.bind (expr_placed first)
    intro test one
    refine .bind (stmt_placed second) fun body two => .pure ?_
    exact (Formed.of_row (c := .stmt (.while_ span test body)) site.within rfl trivial rfl
      ((one.append gap' two).widen start after)).laid
  · exact .unexpected site.within

theorem doWhileStatement_placed (site : Site source span parts) :
    Placed source span (doWhileStatement span parts) := by
  unfold doWhileStatement
  split
  · obtain ⟨before, word, gap, first, gap₁, word', gap₂, second, after⟩ := site.laid
    have start := Nat.le_trans before (Nat.le_trans word.within.ordered gap)
    have between := Nat.le_trans gap₁ (Nat.le_trans word'.within.ordered gap₂)
    apply Places.bind (stmt_placed first)
    intro body one
    refine .bind (expr_placed second) fun test two => .pure ?_
    exact (Formed.of_row (c := .stmt (.doWhile span body test)) site.within rfl trivial rfl
      ((one.append between two).widen start after)).laid
  · exact .unexpected site.within

theorem returnStatement_placed (site : Site source span parts) :
    Placed source span (returnStatement span parts) := by
  unfold returnStatement
  split
  · refine .pure
      (Formed.of_row (c := .stmt (.return_ span none)) site.within rfl trivial rfl ?_).laid
    exact .nil site.within.ordered
  · obtain ⟨before, word, gap, part, after⟩ := site.laid
    refine .bind (expr_placed part) fun e here => .pure ?_
    have start := Nat.le_trans before (Nat.le_trans word.within.ordered gap)
    exact (Formed.of_row (c := .stmt (.return_ span (some e))) site.within rfl trivial rfl
      (here.widen start after)).laid
  · exact .unexpected site.within

theorem throwStatement_placed (site : Site source span parts) :
    Placed source span (throwStatement span parts) := by
  unfold throwStatement
  split
  · obtain ⟨before, word, gap, part, after⟩ := site.laid
    refine .bind (expr_placed part) fun e here => .pure ?_
    have start := Nat.le_trans before (Nat.le_trans word.within.ordered gap)
    exact (Formed.of_row (c := .stmt (.throw_ span e)) site.within rfl trivial rfl
      (here.widen start after)).laid
  · exact .unexpected site.within

/-! ### Try and switch -/

theorem catchClause_placed (site : Site source span parts) :
    Placed source span (catchClause span parts) := by
  unfold catchClause
  split
  · obtain ⟨before, word, gap, part, after⟩ := site.laid
    have start := Nat.le_trans before (Nat.le_trans word.within.ordered gap)
    refine .bind (block_placed part) fun body here => .pure ?_
    exact (Formed.of_row (c := .catch_ span none body) site.within rfl trivial rfl
      (here.widen start after)).laid
  · obtain ⟨before, word, gap, first, gap', second, after⟩ := site.laid
    have start := Nat.le_trans before (Nat.le_trans word.within.ordered gap)
    apply Places.bind (pattern_placed first)
    intro param one
    refine .bind (block_placed second) fun body two => .pure ?_
    exact (Formed.of_row (c := .catch_ span (some param) body) site.within rfl trivial rfl
      ((one.append gap' two).widen start after)).laid
  · exact .unexpected site.within

theorem finallyClause_placed (site : Site source span parts) :
    Placed source span (finallyClause span parts) := by
  unfold finallyClause
  split
  · obtain ⟨before, word, gap, part, after⟩ := site.laid
    refine .bind (block_placed part) fun body here => .pure ?_
    exact here.widen (Nat.le_trans before (Nat.le_trans word.within.ordered gap)) after
  · exact .unexpected site.within

theorem catchClause_isOf {made : Piece} (built : catchClause span parts = .ok made) :
    made.isOf .catchClause = true := by
  unfold catchClause at built
  split at built
  · obtain ⟨body, _, done⟩ := bind_ok.1 built
    cases done
    rfl
  · obtain ⟨param, _, rest⟩ := bind_ok.1 built
    obtain ⟨body, _, done⟩ := bind_ok.1 rest
    cases done
    rfl
  · cases built

theorem finallyClause_isOf {made : Piece} (built : finallyClause span parts = .ok made) :
    made.isOf .finallyClause = true := by
  unfold finallyClause at built
  split at built
  · obtain ⟨body, _, done⟩ := bind_ok.1 built
    cases done
    rfl
  · cases built

/-- The clauses of a try statement in the order that the grammar admits. -/
def ClausesInOrder (clauses : List Rule) : Prop :=
  ∃ first second, clauses = first ++ second ∧ (first = [] ∨ first = [.catchClause]) ∧
    (second = [] ∨ second = [.finallyClause])

theorem tryClauses_single (laid : PartsLaid source low [p] high) :
    Places source (tryClauses .nothing none [p]) fun made =>
      Laid source low (made.1.constructs ++ made.2.toList.map .block) high := by
  obtain ⟨before, part, after⟩ := laid
  apply Places.bind part.placed
  intro piece here
  cases piece with
  | handler h => exact .pure (by simpa using here.widen before after)
  | finalizer b => exact .pure (here.widen before after)
  | _ => exact .unexpected part.within

theorem tryClauses_both {q : Part} (laid : PartsLaid source low [p, q] high)
    (first : p.rule = .catchClause) (second : q.rule = .finallyClause) :
    Places source (tryClauses .nothing none [p, q]) fun made =>
      Laid source low (made.1.constructs ++ made.2.toList.map .block) high := by
  obtain ⟨before, handles, gap, finishes, after⟩ := laid
  apply Places.bind handles.clause
  rintro piece ⟨one, suits⟩
  rw [first] at suits
  cases piece with
  | handler h =>
    apply Places.bind finishes.clause
    rintro piece ⟨two, suits⟩
    rw [second] at suits
    cases piece with
    | finalizer b => exact .pure ((Laid.append one gap two).widen before after)
    | handler h => cases suits
    | _ => exact .unexpected finishes.within
  | finalizer b => cases suits
  | _ => exact .unexpected handles.within

theorem tryClauses_placed (laid : PartsLaid source low parts high)
    (ordered : ClausesInOrder (parts.map Part.rule)) :
    Places source (tryClauses .nothing none parts) fun made =>
      Laid source low (made.1.constructs ++ made.2.toList.map .block) high := by
  obtain ⟨first, second, rules, rfl | rfl, rfl | rfl⟩ := ordered
  · obtain rfl := List.map_eq_nil_iff.1 rules
    exact .pure (.nil laid)
  · obtain ⟨p, rfl, _⟩ := List.map_eq_singleton_iff.1 rules
    exact tryClauses_single laid
  · obtain ⟨p, rfl, _⟩ := List.map_eq_singleton_iff.1 rules
    exact tryClauses_single laid
  · obtain ⟨p, rest, rfl, catches, others⟩ := List.map_eq_cons_iff.1 rules
    obtain ⟨q, rfl, finishes⟩ := List.map_eq_singleton_iff.1 others
    exact tryClauses_both laid catches finishes

theorem tryStatement_placed (site : Site source span parts)
    (ordered : ClausesInOrder ((parts.drop 2).map Part.rule)) :
    Placed source span (tryStatement span parts) := by
  unfold tryStatement
  split
  · obtain ⟨before, word, gap, part, after⟩ := site.laid
    have start := Nat.le_trans before (Nat.le_trans word.within.ordered gap)
    apply Places.bind (block_placed part)
    intro body one
    apply Places.bind (tryClauses_placed after ordered)
    intro made two
    obtain ⟨handler, finalizer⟩ := made
    have row := (one.append (Nat.le_refl _) two).widen start (Nat.le_refl _)
    simp only
    split
    · exact .fails site.within.inside
    · rename_i some_
      refine .pure
        (Formed.of_row (c := .stmt (.try_ span body handler finalizer)) site.within ?_ trivial rfl
        row).laid
      cases handler with
      | catch_ => rfl
      | nothing =>
        cases finalizer with
        | some => rfl
        | none => exact absurd rfl (some_ rfl)
  · exact .unexpected site.within

theorem case_placed (part : p.Laid source) :
    Places source p.case fun c => Laid source p.span.start [.case c] p.span.stop := by
  apply Places.bind part.placed
  intro piece here
  cases piece with
  | case c => exact .pure here
  | _ => exact .unexpected part.within

theorem switchCase_placed (site : Site source span parts) :
    Placed source span (switchCase span parts) := by
  unfold switchCase
  split
  · obtain ⟨before, word, gap, part, after⟩ := site.laid
    have start := Nat.le_trans before (Nat.le_trans word.within.ordered gap)
    apply Places.bind (expr_placed part)
    intro test one
    refine .bind (each_single (fun _ part => stmt_placed part) after) fun body two => .pure ?_
    exact (Formed.of_row (c := .case ⟨some test, body, span⟩) site.within rfl trivial rfl
      ((one.append (Nat.le_refl _) two).widen start (Nat.le_refl _))).laid
  · obtain ⟨before, word, after⟩ := site.laid
    refine .bind (each_single (fun _ part => stmt_placed part) after) fun body here => .pure ?_
    exact (Formed.of_row (c := .case ⟨none, body, span⟩) site.within rfl trivial rfl
      (here.widen (Nat.le_trans before word.within.ordered) (Nat.le_refl _))).laid
  · exact .unexpected site.within

theorem switchStatement_placed (site : Site source span parts) :
    Placed source span (switchStatement span parts) := by
  unfold switchStatement
  split
  · obtain ⟨before, word, gap, part, after⟩ := site.laid
    have start := Nat.le_trans before (Nat.le_trans word.within.ordered gap)
    apply Places.bind (expr_placed part)
    intro subject one
    refine .bind (each_single (fun _ part => case_placed part) after) fun cs two => .pure ?_
    exact (Formed.of_row (c := .stmt (.switch span subject cs)) site.within rfl trivial rfl
      ((one.append (Nat.le_refl _) two).widen start (Nat.le_refl _))).laid
  · exact .unexpected site.within

theorem expressionStatement_placed (site : Site source span parts) :
    Placed source span (expressionStatement span parts) := by
  unfold expressionStatement
  split
  · obtain ⟨before, part, after⟩ := site.laid
    refine .bind (expr_placed part) fun e here => .pure ?_
    exact (Formed.of_row (c := .stmt (.expression span e)) site.within rfl trivial rfl
      (here.widen before after)).laid
  · exact .unexpected site.within

theorem program_placed (site : Site source span parts) : Placed source span (program parts) :=
  .bind (each_single (fun _ part => stmt_placed part) (site.laid.filter _)) fun _ there =>
    .pure there

end Scriptlet.Tree
