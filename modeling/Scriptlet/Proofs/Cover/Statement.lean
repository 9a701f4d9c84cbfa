import Scriptlet.Proofs.Cover.Text
import Scriptlet.Proofs.Shift.Accepted

/-!
Programs of one statement.

A declarator after a keyword and an expression in parentheses are all of a program if they are all
of its text. Main statements: `program_single`, `let_statement` and `parenthesized_statement`.
-/

namespace Scriptlet

open Grammar Scriptlet.Tree Lexer

variable {c d : Cursor} {ns ms : List (Grammar.Node Rule)} {cs rest : List Char} {p q : Nat}

/-! ### Programs of one statement -/

theorem absent_at_end_of_text {e : Peg Rule} (ended : c.rest = [])
    (seen : Sight.ended.peek e = .refused) :
    Absent e c :=
  Absent.of_sight (Sight.ended_fits ended) seen

theorem skip_at_end_of_text (ended : c.rest = []) : c.skip = c :=
  Cursor.skip_of_clean (by rw [ended]; rfl)

theorem opt_at_end_of_text {e : Peg Rule} (ended : c.rest = [])
    (seen : Sight.ended.peek e = .refused)
    (matched : Matches (.opt e) c.skip ns d) : ns = [] ∧ d = c := by
  rw [skip_at_end_of_text ended] at matched
  exact (absent_at_end_of_text ended seen).of_opt matched

theorem star_at_end_of_text {e : Peg Rule} (ended : c.rest = [])
    (seen : Sight.ended.peek e = .refused)
    (matched : Matches (.star e) c.skip ns d) : ns = [] ∧ d = c := by
  rw [skip_at_end_of_text ended] at matched
  exact (absent_at_end_of_text ended seen).of_star matched

/-- A program whose first statement can only be all of the text consists of that statement. -/
theorem program_single {source : String} {options : ParseOptions} {program : Program}
    (accepted : parseProgram source options = .ok program) (clean : layoutUnit source.toList = none)
    (some : source.toList ≠ [])
    (single : ∀ nodes d, Matches (.rule .statement) ⟨source.toList, 0⟩ nodes d →
      d.rest = [] ∧ ∃ n, nodes = [n] ∧ n.rule ≠ .endOfInput) :
    ∃ n d s, Matches (.rule .statement) ⟨source.toList, 0⟩ [n] d ∧ (build n).stmt = .ok s ∧
    program.body = [s] := by
  unfold parseProgram at accepted
  split at accepted
  next n c t matched =>
    have derives : Matches (.rule .program) ⟨source.toList, 0⟩ [n] c :=
      RuleSet.run_derives (congrArg Outcome.result? matched)
    obtain ⟨children, same, inside⟩ := (matches_plain rfl).1 derives
    cases same
    obtain ⟨_, _, e, rfl, started, tail⟩ := matches_seq.1 inside
    obtain ⟨_, _, f, rfl, statements, finish⟩ := matches_seq.1 tail
    cases started
    rw [Cursor.skip_of_clean clean] at statements
    obtain ⟨_, rfl, last⟩ := (matches_plain rfl).1 finish
    rcases matches_star.1 statements with ⟨-, -, rfl⟩ | ⟨first, others, g, rfl, statement, more⟩
    · rw [Cursor.skip_of_clean clean] at last
      cases last with
      | finish ended => exact absurd ended some
    · obtain ⟨ended, m, rfl, apart⟩ := single first g statement
      have none : Absent (.rule .statement) g.skip :=
        (skip_at_end_of_text ended).symm ▸ absent_at_end_of_text ended rfl
      obtain ⟨rfl, rfl⟩ := none.of_repeats more
      split at accepted
      next => cases accepted
      next body built =>
        rw [statements_program rfl] at built
        have first : (build m).rule != .endOfInput := by
          rw [build_eq]
          exact bne_iff_ne.2 apart
        have last (span : Span) (children : List (Grammar.Node Rule)) :
            ((build ⟨.endOfInput, span, "", children⟩).rule != .endOfInput) = false := by
          rw [build_eq]
          rfl
        simp only [List.append_nil, List.nil_append, List.map_cons, List.map_nil, List.cons_append,
          List.filter_cons, List.filter_nil, first, last, if_true, Bool.false_eq_true, if_false]
            at built
        obtain ⟨stmt, here, built⟩ := bind_ok.1 built
        cases built
        refine ⟨m, _, stmt, statement, here, ?_⟩
        split at accepted
        next => cases accepted
        next =>
          cases accepted
          rfl
  next => cases accepted
  next => cases accepted
  next => cases accepted

/-! ### Declarations -/

/-- The forms of a statement. -/
def statementRules : List Rule :=
  [.blockStatement, .emptyStatement, .variableStatement, .functionDeclaration, .ifStatement,
    .forEachStatement, .forStatement, .whileStatement, .doWhileStatement, .breakStatement,
      .continueStatement, .returnStatement,
    .throwStatement, .tryStatement, .switchStatement, .expressionStatement]

/-- After the keyword, a declarator that reaches the end of the text is all of the statement. -/
theorem let_statement {m : Grammar.Node Rule}
    (declarator : Matches (.rule .declarator) ⟨cs, 4⟩ [m] d)
    (clean : layoutUnit cs = none) (ended : d.rest = []) {e : Cursor}
    (statement : Matches (.rule .statement) ⟨"let ".toList ++ cs, 0⟩ ns e) :
    e.rest = [] ∧
    ∃ k s s', ns = [⟨.variableStatement, s, "", [⟨.variableDeclaration, s', "", [k, m]⟩]⟩] ∧
      (build k).declKind = .ok .let_ := by
  have word : spelled ("let ".toList ++ cs) = Keyword.let_.text.toList := by
    rfl
  have fits : (Sight.keyword .let_).Fits ⟨"let ".toList ++ cs, 0⟩ :=
    Sight.keyword_fits word (by decide)
  have seen : (Sight.keyword .let_).left statementRules = [.variableStatement] := rfl
  have variable' := Sight.only fits seen ((matches_silent rfl).1 statement)
  obtain ⟨_, rfl, inside⟩ := (matches_plain rfl).1 variable'
  obtain ⟨_, _, declared, rfl, declaration, semicolon⟩ := matches_seq.1 inside
  obtain ⟨_, rfl, inside'⟩ := (matches_plain rfl).1 declaration
  obtain ⟨_, _, kindEnd, rfl, kind, declarators⟩ := matches_seq.1 inside'
  obtain ⟨_, rfl, either⟩ := (matches_plain rfl).1 kind
  have seen' : (Sight.keyword .let_).left [.keyword .var_, .keyword .let_, .keyword .const_] =
      [.keyword .let_] := by
    rfl
  obtain ⟨read, advances, rfl⟩ := (matches_token rfl (decides_keywordBody .let_ (by nofun))).1
    (Sight.only fits seen' either)
  have last : kindEnd = ⟨' ' :: cs, 3⟩ :=
    advances.unique ⟨"let".toList, rfl, rfl⟩ (Option.some.inj (read.symm.trans rfl))
  subst last
  rw [skip_blank (by decide), Cursor.skip_of_clean (show layoutUnit _ = none from clean)]
    at declarators
  obtain ⟨_, others, f, rfl, first, more⟩ := matches_seq.1 declarators
  obtain ⟨rfl, rfl⟩ := declarator.unique first
  obtain ⟨rfl, rfl⟩ := star_at_end_of_text ended rfl more
  obtain ⟨rfl, rfl⟩ := opt_at_end_of_text ended rfl semicolon
  exact ⟨ended, _, _, _, rfl, rfl⟩

/-- What such a statement declares. -/
theorem declared_stmt {n v k : Grammar.Node Rule} {s s' s'' : Span} {stmt : Stmt}
    (named : (build k).declKind = .ok .let_)
    (made : (build ⟨.variableStatement, s, "",
      [⟨.variableDeclaration, s', "", [k, ⟨.declarator, s'', "", [n, v]⟩]⟩]⟩).stmt = .ok stmt) :
    ∃ p e, (build n).pattern = .ok p ∧ (build v).expr = .ok e ∧
      stmt = .declaration s ⟨.let_, [⟨p, some e, s''⟩], s'⟩ := by
  obtain ⟨x, stands, read⟩ := bind_ok.1 made
  rw [piece_build] at stands
  obtain ⟨declaration, declared, done⟩ := bind_ok.1 stands
  cases done
  cases read
  obtain ⟨x, stands, read⟩ := bind_ok.1 declared
  rw [piece_build] at stands
  obtain ⟨kind, named', stands⟩ := bind_ok.1 stands
  cases named.symm.trans named'
  obtain ⟨declarators, each', done⟩ := bind_ok.1 stands
  cases done
  cases read
  obtain ⟨declarator, checked, each'⟩ := bind_ok.1 each'
  obtain ⟨_, none, done⟩ := bind_ok.1 each'
  cases none
  cases done
  obtain ⟨x, stands, read⟩ := bind_ok.1 checked
  rw [piece_build] at stands
  obtain ⟨p, pattern, stands⟩ := bind_ok.1 stands
  obtain ⟨e, value, done⟩ := bind_ok.1 stands
  cases done
  cases read
  exact ⟨p, e, pattern, value, rfl⟩

/-! ### Expressions in parentheses -/

/-- A bracket that closes at the end of a text in which nothing is left open is not closed
before. -/
theorem bracketed_ends {e : Peg Rule} (balanced : Balanced e) (path : Path ([], cs) ([], []))
    (matched : Matches (bracketed '(' e ')') ⟨'(' :: (cs ++ [')']), p⟩ ns d) : d.rest = [] := by
  obtain ⟨rest, f, there, inside, ends, -⟩ := matches_bracketed.1 matched
  cases there
  have within := path_inside balanced inside
  rw [ends] at within
  obtain ⟨ρ, ahead⟩ := within.suffix
  simp only at ahead
  rcases List.eq_nil_or_concat d.rest with none | ⟨tail, last, same⟩
  · exact none
  · -- the bracket would be closed inside of the text
    rw [List.concat_eq_append] at same
    rw [same, ← List.cons_append, ← List.append_assoc] at ahead
    obtain ⟨rfl, final⟩ := List.append_inj' ahead rfl
    cases final
    rw [List.append_assoc, List.cons_append, ← same] at within
    have inner : Path ([], ρ ++ ')' :: tail) ([], ')' :: tail) :=
      within.swap rfl (closed_cons rfl) (b := [])
    exact absurd (path.halt inner rfl (step_closing rfl)) (by simp)

/-- Parentheses around all of a text are no parameters of an arrow function. -/
theorem arrow_absent_of_ended (path : Path ([], cs) ([], [])) :
    Absent (.rule .arrowFunction) ⟨'(' :: (cs ++ [')']), p⟩ := by
  intro nodes d function
  obtain ⟨ps, t, rest, parameters, there⟩ := arrow_after function
  obtain ⟨_, -, either⟩ := (matches_plain rfl).1 parameters
  have seen : (Sight.ahead ['(']).left [.identifier, .parameters] = [.parameters] := rfl
  obtain ⟨_, -, inside⟩ := (matches_plain rfl).1 (Sight.only (Sight.ahead_cons rfl rfl) seen either)
  have ended := bracketed_ends balanced_parameters path inside
  rw [skip_at_end_of_text ended, ended] at there
  cases there

/-- A statement of parentheses around a text consists of the expression between them. -/
theorem parenthesized_statement (path : Path ([], cs) ([], []))
    (matched : Matches (.rule .statement) ⟨'(' :: (cs ++ [')']), 0⟩ ns d) :
    d.rest = [] ∧ ∃ s k inner f, ns = [⟨.expressionStatement, s, "", [k]⟩] ∧
      Matches (.rule .expression) (Cursor.skip ⟨cs ++ [')'], 1⟩) inner f ∧ f.skip.rest = [')'] ∧
        ∀ m, inner = [m] → (build k).expr = (build m).expr := by
  have fits : (Sight.ahead ['(']).Fits ⟨'(' :: (cs ++ [')']), 0⟩ := Sight.ahead_cons rfl rfl
  have clean : Cursor.skip ⟨'(' :: (cs ++ [')']), 0⟩ = ⟨'(' :: (cs ++ [')']), 0⟩ :=
    Cursor.skip_of_clean rfl
  have seen : (Sight.ahead ['(']).left statementRules = [.expressionStatement] := rfl
  obtain ⟨_, rfl, inside⟩ :=
    (matches_plain rfl).1 (Sight.only fits seen ((matches_silent rfl).1 matched))
  obtain ⟨_, _, e, rfl, expression, semicolon⟩ := matches_seq.1 inside
  obtain ⟨_, rfl, inside₁⟩ := (matches_plain rfl).1 expression
  obtain ⟨_, _, e', rfl, first, others⟩ := matches_seq.1 inside₁
  obtain ⟨inner, t, primary, alone⟩ := assignment_operand first (arrow_absent_of_ended path)
    (Absent.of_sight fits rfl) (clean.symm ▸ Absent.of_sight fits rfl)
  rw [clean] at primary
  have seen' : (Sight.ahead ['(']).left operandRules = [.parenthesized] := rfl
  obtain ⟨nodes, rfl, inside₂⟩ :=
    (matches_plain rfl).1 (Sight.only fits seen' ((matches_silent rfl).1 primary))
  have ended := bracketed_ends balanced_expression path inside₂
  obtain ⟨rest, f, there, between, closed, -⟩ := matches_bracketed.1 inside₂
  cases there
  rw [skip_at_end_of_text ended] at alone
  obtain ⟨w, more, rfl, same, assigned⟩ := alone (.of_sight (Sight.ended_fits ended) rfl)
  obtain ⟨rfl, rfl⟩ := (absent_at_end_of_text ended rfl).of_opt assigned
  obtain ⟨rfl, rfl⟩ := star_at_end_of_text ended rfl others
  obtain ⟨rfl, rfl⟩ := opt_at_end_of_text ended rfl semicolon
  refine ⟨ended, _, _, nodes, f, rfl, between, ended ▸ closed, fun m single => ?_⟩
  subst single
  rw [List.append_nil, expr_of_relays relays_expression, expr_of_relays relays_assignment,
    same _ rfl, expr_of_relays relays_parenthesized]

/-- What an expression statement consists of. -/
theorem expression_stmt {k : Grammar.Node Rule} {s : Span} {stmt : Stmt}
    (made : (build ⟨.expressionStatement, s, "", [k]⟩).stmt = .ok stmt) :
    ∃ e, (build k).expr = .ok e ∧ stmt = .expression s e := by
  obtain ⟨x, stands, read⟩ := bind_ok.1 made
  rw [piece_build] at stands
  obtain ⟨e, here, done⟩ := bind_ok.1 stands
  cases done
  cases read
  exact ⟨e, here, rfl⟩

end Scriptlet
