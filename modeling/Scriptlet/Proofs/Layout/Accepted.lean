import Scriptlet.Parse
import Scriptlet.Proofs.Layout.Binding
import Scriptlet.Proofs.Layout.Expression
import Scriptlet.Proofs.Layout.Statement
import Scriptlet.Proofs.Tree.Shape

/-!
The spans and the shape of accepted programs.

Main statements: everything in an accepted program consists of whole characters, holds its parts,
and keeps them in the order of the text; and everything in it has the shape that evaluation relies
on.
-/

namespace Scriptlet

open Grammar (Rule script)
open Construct (Formed Laid)

variable {source : String}

namespace Tree

variable {parts : List Part} {span : Span}

/-! ### What the grammar says of the children of a rule -/

theorem functionDeclaration_rules {rules : List Rule}
    (admitted : (script.define .functionDeclaration).body.Admits script rules) :
    rules.length = 4 := by
  obtain ⟨_, _, rfl, first, admitted⟩ := Grammar.Peg.admits_seq.1 admitted
  obtain ⟨_, _, rfl, second, admitted⟩ := Grammar.Peg.admits_seq.1 admitted
  obtain ⟨_, _, rfl, third, fourth⟩ := Grammar.Peg.admits_seq.1 admitted
  obtain rfl := (Grammar.Peg.admits_rule (by decide)).1 first
  obtain rfl := (Grammar.Peg.admits_rule (by decide)).1 second
  obtain rfl := (Grammar.Peg.admits_rule (by decide)).1 third
  obtain rfl := (Grammar.Peg.admits_rule (by decide)).1 fourth
  rfl

theorem tryStatement_rules {rules : List Rule}
    (admitted : (script.define .tryStatement).body.Admits script rules) :
    ClausesInOrder (rules.drop 2) := by
  obtain ⟨_, _, rfl, first, admitted⟩ := Grammar.Peg.admits_seq.1 admitted
  obtain ⟨_, _, rfl, second, admitted⟩ := Grammar.Peg.admits_seq.1 admitted
  obtain ⟨catches, finishes, rfl, third, fourth⟩ := Grammar.Peg.admits_seq.1 admitted
  obtain rfl := (Grammar.Peg.admits_rule (by decide)).1 first
  obtain rfl := (Grammar.Peg.admits_rule (by decide)).1 second
  refine ⟨catches, finishes, rfl, ?_, ?_⟩
  · exact (Grammar.Peg.admits_opt.1 third).imp_right (Grammar.Peg.admits_rule (by decide)).1
  · exact (Grammar.Peg.admits_opt.1 fourth).imp_right (Grammar.Peg.admits_rule (by decide)).1

/-! ### Building -/

theorem piece_placed (rule : Rule) {text : String} (site : Site source span parts)
    (fits : span.start + text.utf8ByteSize ≤ span.stop)
    (rules : (script.define rule).kind ≠ .token →
      (script.define rule).body.Admits script (parts.map Part.rule)) :
    Placed source span (piece rule span text parts) := by
  cases rule with
  | keyword | identifier | propertyName | hexNumber | decimalNumber | doubleChars | singleChars
  | templateChars | assignOp | infixOp | unaryOp | updateOp | endOfInput => exact .pure fits
  | boolean => exact .pure (boolean_placed site)
  | nullLiteral =>
    exact .pure (Formed.leaf (c := .expr (.null span)) site.within rfl trivial rfl).laid
  | thisLiteral =>
    exact .pure (Formed.leaf (c := .expr (.this span)) site.within rfl trivial rfl).laid
  | number => exact number_placed site
  | string => exact string_placed site
  | template => exact template_placed site
  | expression => exact expression_placed site
  | assignment => exact assignment_placed site
  | assignOperator => exact assignOperator_placed site
  | conditional => exact conditional_placed site
  | binary => exact binary_placed site
  | unary => exact .bind (unaryChain_placed site.laid) fun e here => .pure here
  | unaryOperator => exact leading_placed site
  | update => exact update_placed site
  | postfixOperator => exact postfixOperator_placed site
  | leftHandSide => exact leftHandSide_placed site
  | newExpression => exact newExpression_placed site
  | staticMember => exact staticMember_placed site
  | computedMember => exact computedMember_placed site
  | arguments => exact arguments_placed site
  | spread => exact spread_placed site
  | parenthesized | substitution | computedKey => exact wrapped_placed site
  | arrayLiteral => exact arrayLiteral_placed site
  | arraySlot => exact arraySlot_placed site
  | objectLiteral => exact objectLiteral_placed site
  | propertyAssignment => exact propertyAssignment_placed site
  | method => exact method_placed site
  | shorthand => exact shorthand_placed site
  | propertyKey => exact propertyKey_placed site
  | functionDeclaration =>
    exact functionDeclaration_placed site (by simpa using functionDeclaration_rules (rules nofun))
  | functionExpression => exact functionExpression_placed site
  | parameters => exact parameterList_placed site
  | functionBody | blockStatement => exact functionBlock_placed site
  | arrowFunction => exact arrowFunction_placed site
  | arrowParameters => exact arrowParameters_placed site
  | arrowBody => exact arrowBody_placed site
  | bindingElement => exact bindingElement_placed site
  | restElement => exact restElement_placed site
  | arrayBinding => exact arrayBinding_placed site
  | arrayBindingSlot => exact arrayBindingSlot_placed site
  | objectBinding => exact objectBinding_placed site
  | objectBindingProperty => exact objectBindingProperty_placed site
  | emptyStatement =>
    exact .pure (Formed.leaf (c := .stmt (.empty span)) site.within rfl trivial rfl).laid
  | breakStatement =>
    exact .pure (Formed.leaf (c := .stmt (.break_ span)) site.within rfl trivial rfl).laid
  | continueStatement =>
    exact .pure (Formed.leaf (c := .stmt (.continue_ span)) site.within rfl trivial rfl).laid
  | variableStatement => exact variableStatement_placed site
  | variableDeclaration => exact variableDeclaration_placed site
  | declarationKind => exact declarationKind_placed site
  | declarator => exact declarator_placed site
  | ifStatement => exact ifStatement_placed site
  | forStatement => exact forStatement_placed site
  | forInit => exact forInit_placed site
  | forTest => exact forTest_placed site
  | forUpdate => exact forUpdate_placed site
  | forEachStatement => exact forEachStatement_placed site
  | forEachLeft => exact forEachLeft_placed site
  | forDeclaration => exact forDeclaration_placed site
  | whileStatement => exact whileStatement_placed site
  | doWhileStatement => exact doWhileStatement_placed site
  | returnStatement => exact returnStatement_placed site
  | throwStatement => exact throwStatement_placed site
  | tryStatement =>
    exact tryStatement_placed site (by simpa using tryStatement_rules (rules nofun))
  | catchClause => exact catchClause_placed site
  | finallyClause => exact finallyClause_placed site
  | switchStatement => exact switchStatement_placed site
  | switchCase => exact switchCase_placed site
  | expressionStatement => exact expressionStatement_placed site
  | program => exact program_placed site
  | reservedWord | nameStart | nameChar | exponent | escape | infixOperator | primary | objectMember
  | bindingTarget | objectBindingMember | statement => exact .unexpected site.within

theorem piece_isOf (rule : Rule) (text : String) {made : Piece}
    (built : piece rule span text parts = .ok made) : made.isOf rule = true := by
  cases rule with
  | catchClause => exact catchClause_isOf built
  | finallyClause => exact finallyClause_isOf built
  | _ => rfl

theorem foldAll_eq_map {R α : Type} (f : R → Span → String → List α → α)
    (ns : List (Grammar.Node R)) :
    foldAll f ns = ns.map (fold f) := by
  induction ns with
  | nil => rfl
  | cons n rest ih => rw [foldAll, ih, List.map_cons]

theorem build_eq (n : Grammar.Node Rule) :
    build n = ⟨n.rule, n.span, piece n.rule n.span n.text (n.children.map build)⟩ := by
  unfold build
  cases n
  rw [fold, foldAll_eq_map]
  rfl

theorem partsLaid_build {ns : List (Grammar.Node Rule)} {low high : Nat}
    (chain : Span.Chain low (ns.map Grammar.Node.span) high)
    (laid : ∀ n ∈ ns, (build n).Laid source) :
    PartsLaid source low (ns.map build) high := by
  induction ns generalizing low with
  | nil => exact chain
  | cons n rest ih =>
    obtain ⟨before, _, after⟩ := chain
    obtain ⟨first, others⟩ := List.forall_mem_cons.1 laid
    refine ⟨?_, first, ?_⟩
    · rw [build_eq]
      exact before
    · rw [build_eq]
      exact ih after others

/-- Whatever the grammar matches stands for parts in their places. -/
theorem build_laid {n : Grammar.Node Rule} (lies : n.Lies script source) :
    (build n).Laid source := by
  induction lies with
  | @intro n within fits chain rules _ ih =>
    have site : Site source n.span (n.children.map build) := ⟨within, partsLaid_build chain ih⟩
    have same : (n.children.map build).map Part.rule = n.children.map Grammar.Node.rule := by
      simp [build_eq]
    rw [build_eq]
    refine ⟨within, piece_placed n.rule site fits ?_,
      fun made built => piece_isOf n.rule n.text built⟩
    rw [same]
    exact rules

theorem statements_placed {n : Grammar.Node Rule} (lies : n.Lies script source) :
    Places source (statements n) fun body =>
      Laid source n.span.start (body.map .stmt) n.span.stop := by
  have laid := build_laid lies
  have span : (build n).span = n.span := by rw [build_eq]
  rw [← span]
  apply Places.bind laid.placed
  intro piece here
  cases piece with
  | program body => exact .pure here
  | _ =>
    refine .unexpected ?_
    rw [← span]
    exact laid.within

end Tree

/-- An accepted program is formed. -/
theorem parseProgram_formed {options : ParseOptions} {program : Program}
    (accepted : parseProgram source options = .ok program) :
    (Construct.program program).Formed source := by
  have matched := Grammar.RuleSet.parse_sound script .program source
  unfold parseProgram at accepted
  split at accepted
  · rename_i n _ _ parsed
    rw [parsed] at matched
    have lies := matched.1.lie n (List.mem_singleton_self n)
    split at accepted
    · cases accepted
    · rename_i body built
      split at accepted
      · cases accepted
      · cases accepted
        have laid := (Tree.statements_placed lies).ok body built
        cases lies with
        | intro within => exact .of_row within rfl trivial rfl laid
  · cases accepted
  · cases accepted
  · cases accepted

/-- Everything in an accepted program can be run, but for plain assignments to targets with default
values. -/
theorem parseProgram_sane {options : ParseOptions} {program : Program}
    (accepted : parseProgram source options = .ok program) :
    ∀ st ∈ program.body, (Node.stmt st).Sane := by
  intro st member
  have formed := (parseProgram_formed accepted).rows (List.mem_singleton_self _)
  exact .of_formed (formed.formed _ (List.mem_map_of_mem member)) (.stmt st) rfl

/-- A test of the tree of an accepted text. -/
theorem exists_accepted {options : ParseOptions} {test : Program → Bool}
    (holds : (parseProgram source options).toOption.any test = true) :
    ∃ p, parseProgram source options = .ok p ∧ test p = true := by
  cases parsed : parseProgram source options with
  | error e =>
    rw [parsed] at holds
    cases holds
  | ok p =>
    rw [parsed] at holds
    exact ⟨p, rfl, holds⟩

/-- Everything in an accepted program spans whole characters of the text, holds what stands in it,
and has the parts of a row one after the other. -/
theorem spans_sound {options : ParseOptions} {program : Program}
    (accepted : parseProgram source options = .ok program) {c : Construct}
    (inside : (Construct.program program).Contains c) :
    c.span.start ≤ c.span.stop ∧ c.span.stop ≤ source.utf8ByteSize ∧
      String.Pos.Raw.IsValid source ⟨c.span.start⟩ ∧ String.Pos.Raw.IsValid source ⟨c.span.stop⟩ ∧
      (∀ d ∈ c.parts, c.span.start ≤ d.span.start ∧ d.span.stop ≤ c.span.stop) ∧
      ∀ row ∈ c.rows, row.Pairwise fun d e => d.span.stop ≤ e.span.start := by
  have formed := (parseProgram_formed accepted).contains inside
  have within := formed.within
  refine ⟨within.ordered, within.stop_le, within.start, within.stop, ?_, ?_⟩
  · intro d member
    obtain ⟨row, there, member⟩ := List.mem_flatten.1 member
    exact (formed.rows there).chain.inside (List.mem_map_of_mem member)
  · intro row member
    exact List.pairwise_map.1 (formed.rows member).chain.pairwise

/-- Two statements that start and end with characters of several bytes. -/
theorem spans_sound_wide :
    ∃ p, parseProgram "é = (1) + x\n/**/ f(é, ü)" {} = .ok p ∧ p.body.length = 2 ∧
      (p.body.map Stmt.span).Pairwise fun s t => s.stop ≤ t.start := by
  have two :
      (parseProgram "é = (1) + x\n/**/ f(é, ü)" {}).toOption.any (·.body.length == 2) = true := by
    decide +kernel
  obtain ⟨p, accepted, two⟩ := exists_accepted two
  refine ⟨p, accepted, by simpa using two, List.pairwise_map.2 ?_⟩
  have sound := (spans_sound accepted (.refl _)).2.2.2.2.2
  exact List.pairwise_map.1 (sound _ (List.mem_singleton_self _))

/-- Everything in an accepted program has the shape that evaluation relies on. -/
theorem shapes_sound {options : ParseOptions} {program : Program}
    (accepted : parseProgram source options = .ok program) {c : Construct}
    (inside : (Construct.program program).Contains c) : c.isShaped = true :=
  ((parseProgram_formed accepted).contains inside).shaped

/-- A try statement without a handler, next to a constant that a pattern declares. -/
theorem shapes_sound_try :
    ∃ p, parseProgram "try {} finally {} const {a, ...b} = {}" {} = .ok p ∧
      p.body.map Stmt.label = ["TryStatement", "VariableDeclaration"] ∧
      ∀ s ∈ p.body, (Construct.stmt s).isShaped = true := by
  have two : (parseProgram "try {} finally {} const {a, ...b} = {}" {}).toOption.any
      (fun p => p.body.map Stmt.label == ["TryStatement", "VariableDeclaration"]) = true := by
    decide +kernel
  obtain ⟨p, accepted, labels⟩ := exists_accepted two
  refine ⟨p, accepted, by simpa using labels, fun s member => ?_⟩
  refine shapes_sound accepted (.inside ?_ (.refl _))
  exact List.mem_flatten.2 ⟨_, List.mem_singleton_self _, List.mem_map_of_mem member⟩

end Scriptlet
