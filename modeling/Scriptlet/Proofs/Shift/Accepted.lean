import Scriptlet.Proofs.Layout.Accepted
import Scriptlet.Proofs.Shift.Statement

/-!
Programs after layout.

Main statement: `parseProgram_layout`, layout in front of a text moves the spans of its program and
changes nothing else. A text that the builder refuses is refused for the same cause, with the place
moved.
-/

namespace Scriptlet

open Grammar (Rule Layout script)

namespace Tree

variable (d : Nat) (span : Span) {parts : List Part}

/-- What a rule stands for moves with its parts. Only a chain of operators has to have an
operand. -/
theorem piece_of_shift (rule : Rule) (text : String) (operand : rule = .unary → parts ≠ []) :
    piece rule (span.shift d) text (shiftParts d parts) =
      (piece rule span text parts).shift d (Piece.shift d) := by
  cases rule with
  | number => exact number_shift parts d span
  | string => exact string_shift parts d span
  | template => exact template_shift parts d span
  | boolean => exact congrArg Except.ok (boolean_shift d span parts)
  | expression => exact expression_shift parts d span
  | assignment => exact assignment_shift parts d span
  | assignOperator => exact assignOperator_shift parts d span
  | conditional => exact conditional_shift parts d span
  | binary => exact binary_shift parts d span
  | unary =>
    change (unaryChain (shiftParts d parts) >>= _) = _
    rw [unaryChain_shift d parts (operand rfl)]
    exact bind_shift fun _ => rfl
  | unaryOperator => exact leading_shift parts d span
  | update => exact update_shift parts d span
  | postfixOperator => exact postfixOperator_shift parts d span
  | leftHandSide => exact leftHandSide_shift parts d span
  | newExpression => exact newExpression_shift parts d span
  | staticMember => exact staticMember_shift parts d span
  | computedMember => exact computedMember_shift parts d span
  | arguments => exact arguments_shift d parts
  | spread => exact spread_shift parts d span
  | parenthesized | substitution | computedKey => exact wrapped_shift parts d span
  | arrayLiteral => exact arrayLiteral_shift parts d span
  | arraySlot => exact arraySlot_shift parts d span
  | objectLiteral => exact objectLiteral_shift parts d span
  | propertyAssignment => exact propertyAssignment_shift parts d span
  | method => exact method_shift parts d span
  | shorthand => exact shorthand_shift parts d span
  | propertyKey => exact propertyKey_shift parts d span
  | functionDeclaration => exact functionDeclaration_shift parts d span
  | functionExpression => exact functionExpression_shift parts d span
  | parameters => exact parameterList_shift d parts
  | functionBody | blockStatement => exact functionBlock_shift parts d span
  | arrowFunction => exact arrowFunction_shift parts d span
  | arrowParameters => exact arrowParameters_shift parts d span
  | arrowBody => exact arrowBody_shift parts d span
  | bindingElement => exact bindingElement_shift parts d span
  | restElement => exact restElement_shift parts d span
  | arrayBinding => exact arrayBinding_shift parts d span
  | arrayBindingSlot => exact arrayBindingSlot_shift parts d span
  | objectBinding => exact objectBinding_shift parts d span
  | objectBindingProperty => exact objectBindingProperty_shift parts d span
  | variableStatement => exact variableStatement_shift parts d span
  | variableDeclaration => exact variableDeclaration_shift parts d span
  | declarationKind => exact declarationKind_shift parts d span
  | declarator => exact declarator_shift parts d span
  | ifStatement => exact ifStatement_shift parts d span
  | forStatement => exact forStatement_shift parts d span
  | forInit => exact forInit_shift parts d span
  | forTest => exact forTest_shift parts d span
  | forUpdate => exact forUpdate_shift parts d span
  | forEachStatement => exact forEachStatement_shift parts d span
  | forEachLeft => exact forEachLeft_shift parts d span
  | forDeclaration => exact forDeclaration_shift parts d span
  | whileStatement => exact whileStatement_shift parts d span
  | doWhileStatement => exact doWhileStatement_shift parts d span
  | returnStatement => exact returnStatement_shift parts d span
  | throwStatement => exact throwStatement_shift parts d span
  | tryStatement => exact tryStatement_shift parts d span
  | catchClause => exact catchClause_shift parts d span
  | finallyClause => exact finallyClause_shift parts d span
  | switchStatement => exact switchStatement_shift parts d span
  | switchCase => exact switchCase_shift parts d span
  | expressionStatement => exact expressionStatement_shift parts d span
  | program => exact program_shift d parts
  | _ => rfl

theorem shiftNodes_eq {R : Type} (ns : List (Grammar.Node R)) :
    Grammar.shiftNodes d ns = ns.map (Grammar.Node.shift d) := by
  induction ns with
  | nil => rfl
  | cons n rest ih => rw [Grammar.shiftNodes, ih, List.map_cons]

/-- What a node of a match stands for moves with it. -/
theorem build_shift {source : String} {n : Grammar.Node Rule} (lies : n.Lies script source) :
    build (n.shift d) = (build n).shift d := by
  induction lies with
  | @intro n within fits chain rules _ ih =>
    obtain ⟨rule, span, text, children⟩ := n
    have parts :
        (children.map (Grammar.Node.shift d)).map build = shiftParts d (children.map build) := by
      simp only [shiftParts, List.map_map]
      exact List.map_congr_left ih
    have operand (same : rule = .unary) : children.map build ≠ [] := by
      subst same
      intro none
      obtain ⟨first, second, both, -, last⟩ :=
        Grammar.Peg.admits_seq.1 (rules Grammar.RuleKind.noConfusion)
      rw [Grammar.Peg.admits_rule Grammar.RuleKind.noConfusion] at last
      simp [List.map_eq_nil_iff.1 none, last] at both
    rw [build_eq, Grammar.Node.shift, build_eq ⟨rule, span, text, children⟩]
    simp only [shiftNodes_eq, parts, piece_of_shift d span rule text operand]
    rfl

/-- The statements of a program are those of its parts. -/
theorem statements_program {n : Grammar.Node Rule} (program : n.rule = .program) :
    statements n = each Part.stmt ((n.children.map build).filter (·.rule != .endOfInput)) := by
  unfold statements
  rw [build_eq, program]
  change (each Part.stmt _ >>= _) >>= _ = _
  cases each Part.stmt ((n.children.map build).filter (·.rule != .endOfInput)) <;> rfl

theorem statements_behind {source : String} {n : Grammar.Node Rule} (lies : n.Lies script source)
    (program : n.rule = .program) :
    statements (n.behind d) = (statements n).shift d (List.map (Stmt.shift d)) := by
  have parts : ((n.behind d).children.map build).filter (·.rule != .endOfInput) =
      shiftParts d ((n.children.map build).filter (·.rule != .endOfInput)) := by
    cases lies with
    | intro _ _ _ _ inner =>
      have built : (n.children.map (Grammar.Node.shift d)).map build =
          (n.children.map build).map (Part.shift d) := by
        simp only [List.map_map]
        exact List.map_congr_left fun m member => build_shift d (inner m member)
      simp only [Grammar.Node.behind, shiftNodes_eq, built, shiftParts, List.filter_map]
      rfl
  rw [statements_program (n := n.behind d) program, parts, each_shift stmt_shift,
    statements_program program]

end Tree

/-- Whether the grammar does not admit the text, as opposed to the builder. -/
def ParseCause.ofGrammar : ParseCause → Bool
  | .rejected _ _ _ => true
  | _ => false

/-- The program of a text with `d` bytes of layout in front. Its own span still starts at the
beginning. -/
def Program.behind (d : Nat) (p : Program) : Program :=
  ⟨p.body.map (Stmt.shift d), p.sourceFile, ⟨0, p.span.stop + d⟩⟩

/-- A program is one node, from the beginning of the text. -/
theorem program_node {s : String} {nodes : List (Grammar.Node Rule)} {c : Grammar.Cursor}
    {t : Grammar.Trail Rule}
    (matched : script.parse .program s = .matched nodes c t) :
    ∃ n, nodes = [n] ∧ n.rule = .program ∧ n.span.start = 0 ∧ n.Lies script s := by
  have sound := Grammar.RuleSet.parse_sound script .program s
  rw [matched] at sound
  have derives := Grammar.RuleSet.run_derives (congrArg Grammar.Outcome.result? matched)
  cases derives with
  | silent hidden => cases hidden
  | rule => exact ⟨_, rfl, rfl, rfl, sound.1.lie _ (List.mem_singleton_self _)⟩

/-- Layout in front of a text moves what is parsed, and changes nothing else. -/
theorem parseProgram_layout {w : String} (text : Layout w.toList) (s : String)
    (options : ParseOptions) :
    match parseProgram s options with
    | .ok program => parseProgram (w ++ s) options = .ok (program.behind w.utf8ByteSize)
    | .error e => ∃ e', parseProgram (w ++ s) options = .error e' ∧
        e'.cause.ofGrammar = e.cause.ofGrammar ∧
        (e.cause.ofGrammar = false →
          e'.cause = e.cause ∧ e'.span = e.span.shift w.utf8ByteSize) := by
  have moved := Grammar.parse_shift text s
  cases alone : script.parse .program s with
  | exhausted => exact absurd alone (Grammar.RuleSet.parse_ends Grammar.bounds_script (by decide) s)
  | refused t =>
    rw [alone] at moved
    obtain ⟨t', behind⟩ := Grammar.Outcome.refused_of_result? moved
    simp only [parseProgram, alone, behind]
    exact ⟨_, rfl, rfl, fun builder => by cases builder⟩
  | matched nodes c t =>
    obtain ⟨n, rfl, program, start, lies⟩ := program_node alone
    rw [alone] at moved
    obtain ⟨t', behind⟩ := Grammar.Outcome.matched_of_result? moved
    simp only [List.map_cons, List.map_nil] at behind
    simp only [parseProgram, alone, behind, Tree.statements_behind _ lies program]
    cases built : Tree.statements n with
    | error e => exact ⟨_, rfl, rfl, fun _ => ⟨rfl, rfl⟩⟩
    | ok body =>
      have free := firstFreeReturn?_shift w.utf8ByteSize body
      rw [shiftStmts_eq] at free
      simp only [Tree.Build.shift_ok, free]
      by_cases allowed : options.allowReturn = true
      · simp [allowed, Program.behind, Grammar.Node.behind, start]
      · simp only [allowed, Bool.false_eq_true, if_false]
        cases firstFreeReturn? body with
        | none => simp [Program.behind, Grammar.Node.behind, start]
        | some span => exact ⟨_, rfl, rfl, fun _ => ⟨rfl, rfl⟩⟩

/-- A program after a comment, and a text that is refused after a comment. -/
theorem parseProgram_layout_comment :
    (∃ p, parseProgram "x = 1" {} = .ok p ∧ p.body.length = 1 ∧
        parseProgram ("//c\n" ++ "x = 1") {} = .ok (p.behind 4)) ∧
      ∃ e, parseProgram ("/**/" ++ "return") {} = .error e ∧ e.cause = .strayReturn ∧
      e.span = ⟨4, 10⟩ := by
  have line : Layout "//c\n".toList :=
    @Layout.line ['c'] [] '\n' (by decide) (by decide) (.inl rfl) .nil
  have block : Layout "/**/".toList := @Layout.block [] [] (by decide) .nil
  have accepts {w s : String} (text : Layout w.toList) {p : Program}
      (accepted : parseProgram s {} = .ok p) :
      parseProgram (w ++ s) {} = .ok (p.behind w.utf8ByteSize) := by
    have moved := parseProgram_layout text s {}
    rwa [accepted] at moved
  have refuses {w s : String} (text : Layout w.toList) {cause : ParseCause} {span : Span}
      (builder : cause.ofGrammar = false)
      (refused : (match parseProgram s {} with
        | .ok _ => false
        | .error e => e.cause == cause && e.span == span) = true) :
      ∃ e, parseProgram (w ++ s) {} = .error e ∧ e.cause = cause ∧
        e.span = span.shift w.utf8ByteSize := by
    have moved := parseProgram_layout text s {}
    cases alone : parseProgram s {} with
    | ok p => simp [alone] at refused
    | error e =>
      simp only [alone, Bool.and_eq_true, beq_iff_eq] at refused moved
      obtain ⟨rfl, rfl⟩ := refused
      obtain ⟨e', behind, -, same⟩ := moved
      exact ⟨e', behind, same builder⟩
  constructor
  · have accepted : (parseProgram "x = 1" {}).toOption.any (·.body.length == 1) = true := by
      decide +kernel
    obtain ⟨p, accepted, one⟩ := exists_accepted accepted
    exact ⟨p, accepted, by simpa using one, accepts line accepted⟩
  · have refused : (match parseProgram "return" {} with
        | .ok _ => false
        | .error e => e.cause == .strayReturn && e.span == ⟨0, 6⟩) = true := by
      decide +kernel
    obtain ⟨e, behind, cause, span⟩ :=
      @refuses "/**/" "return" block .strayReturn ⟨0, 6⟩ rfl refused
    exact ⟨e, behind, cause, span⟩

end Scriptlet
