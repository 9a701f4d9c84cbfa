import Scriptlet.Proofs.Layout.Accepted

/-!
A node is built only if everything below it is.

The pieces of a program tree are built from the leaves up, and no error on the way is dropped: a
part that its rule does not look at is a word, which is always built. Main statement: a program is
accepted only if every node of its match is built.
-/

namespace Scriptlet

open Grammar (Rule Keyword Peg script)

/-- Whether the text of a rule says all about it. -/
def Grammar.Rule.isWord : Rule → Bool
  | .keyword _ | .identifier | .propertyName | .hexNumber | .decimalNumber | .doubleChars
  | .singleChars | .templateChars | .assignOp _ | .infixOp _ | .unaryOp _ | .updateOp _
  | .endOfInput => true
  | _ => false

namespace Tree

/-- A part that stands for something. -/
def Part.Built (p : Part) : Prop :=
  ∃ piece, p.piece = .ok piece

/-- Something is built only if all the parts are. -/
def Reads {α : Type} (parts : List Part) (m : Build α) : Prop :=
  ∀ a, m = .ok a → ∀ p ∈ parts, p.Built

variable {α β : Type} {p : Part} {parts rest : List Part} {span : Span} {m : Build α}
  {f : α → Build β}

namespace Reads

theorem nil : Reads [] m :=
  fun _ _ _ member => nomatch member

theorem fails {e : BuildError} : Reads parts (.error e : Build α) :=
  fun _ done => nomatch done

theorem unexpected {what : String} : Reads parts (Tree.unexpected span what : Build α) :=
  fails

/-- What was read first, and what is read after that. -/
theorem append (first : Reads parts m) (then_ : ∀ a, m = .ok a → Reads rest (f a)) :
    Reads (parts ++ rest) (m >>= f) := by
  intro b done p member
  obtain ⟨a, made, done⟩ := bind_ok.1 done
  rcases List.mem_append.1 member with member | member
  · exact first a made p member
  · exact then_ a made b done p member

theorem bind (first : Reads [p] m) (then_ : ∀ a, Reads rest (f a)) : Reads (p :: rest) (m >>= f) :=
  append first fun a _ => then_ a

theorem left (first : Reads parts m) : Reads parts (m >>= f) := by
  simpa using first.append (f := f) fun _ _ => nil

/-- A part is read when its piece is asked for. -/
theorem piece {f : Piece → Build β} (then_ : ∀ piece, p.piece = .ok piece → Reads rest (f piece)) :
    Reads (p :: rest) (p.piece >>= f) := by
  have first : Reads [p] p.piece := fun piece made _ member =>
    List.mem_singleton.1 member ▸ ⟨piece, made⟩
  exact first.append then_

theorem single {f : Piece → Build β} : Reads [p] (p.piece >>= f) :=
  piece fun _ _ => nil

/-- A part that is built already does not have to be read. -/
theorem skip (built : p.Built) (reads : Reads rest m) : Reads (p :: rest) m := by
  intro a done q member
  rcases List.mem_cons.1 member with rfl | member
  · exact built
  · exact reads a done q member

theorem skipAll (built : ∀ p ∈ parts, p.Built) : Reads parts m :=
  fun _ _ => built

theorem each {f : Part → Build α} (reads : ∀ p, Reads [p] (f p)) : Reads parts (each f parts) := by
  induction parts with
  | nil => exact nil
  | cons p rest ih => exact .bind (reads p) fun a => .left ih

end Reads

/-! ### Reading parts -/

theorem name_reads : Reads [p] p.name := .single

theorem expr_reads : Reads [p] p.expr := .single

theorem pattern_reads : Reads [p] p.pattern := .single

theorem block_reads : Reads [p] p.block := .single

theorem stmt_reads : Reads [p] p.stmt := .single

theorem parameters_reads : Reads [p] p.parameters := .single

theorem key_reads : Reads [p] p.key := .single

/-! ### Literals and expressions -/

theorem number_reads : Reads parts (number span parts) := by
  unfold number
  split
  · exact .single
  · exact .unexpected

theorem string_reads : Reads parts (string span parts) := by
  unfold string
  split
  · exact .single
  · exact .unexpected

theorem templateParts_reads (current : String) : Reads parts (templateParts parts current) := by
  induction parts generalizing current with
  | nil => exact .nil
  | cons p rest ih =>
    refine .piece fun piece _ => ?_
    cases piece with
    | token raw => exact Reads.nil.append fun text _ => ih _
    | _ => exact Reads.nil.append fun e _ => .left (ih _)

theorem expression_reads : Reads parts (expression span parts) :=
  .left (.each fun _ => expr_reads)

theorem assignment_reads : Reads parts (assignment span parts) := by
  unfold assignment
  split
  · exact .left expr_reads
  · refine .bind expr_reads fun left => .piece fun piece _ => ?_
    cases piece with
    | assignOp op =>
      dsimp only
      split <;> exact Reads.nil.append fun _ _ => .left expr_reads
    | _ => exact .unexpected
  · exact .unexpected

theorem conditional_reads : Reads parts (conditional span parts) := by
  unfold conditional
  split
  · exact .left expr_reads
  · exact .bind expr_reads fun _ => .bind expr_reads fun _ => .left expr_reads
  · exact .unexpected

/-- Words are always built. -/
def Worded (parts : List Part) : Prop :=
  ∀ p ∈ parts, p.rule.isWord = true → p.Built

theorem Worded.tail (worded : Worded (p :: rest)) : Worded rest :=
  fun q member => worded q (List.mem_cons_of_mem _ member)

theorem Worded.head (worded : Worded (p :: rest)) (word : p.rule.isWord = true) : p.Built :=
  worded p List.mem_cons_self word

theorem assignOperator_reads (worded : Worded parts) : Reads parts (assignOperator span parts) := by
  unfold assignOperator
  split
  · exact .skip (worded.head rfl) .nil
  · exact .unexpected

theorem infixOp_reads (worded : Worded [p]) : Reads [p] p.infixOp := by
  unfold Part.infixOp
  split
  · exact .skip (worded.head (by simp [*, Grammar.Rule.isWord])) .nil
  · exact .skip (worded.head (by simp [*, Grammar.Rule.isWord])) .nil
  · exact .skip (worded.head (by simp [*, Grammar.Rule.isWord])) .nil
  · exact .unexpected

/-- Operators and operands come in pairs. -/
theorem chain_reads (worded : Worded parts) (even : parts.length % 2 = 0) :
    Reads parts (chain parts) := by
  induction parts using chain.induct with
  | case1 op operand rest ih =>
    rw [List.length_cons, List.length_cons] at even
    have more := ih worded.tail.tail (by omega)
    have one : Worded [op] := fun p member word =>
      worded p (List.mem_singleton.1 member ▸ List.mem_cons_self) word
    exact .bind (infixOp_reads one) fun _ => .bind expr_reads fun _ => .left more
  | case2 parts other =>
    match parts, other with
    | [], _ => exact .nil
    | [_], _ => simp at even
    | op :: operand :: rest, other => exact absurd rfl (other op operand rest)

theorem binary_reads (worded : Worded parts) (odd : parts.length % 2 = 1) :
    Reads parts (binary span parts) := by
  cases parts with
  | nil => exact .nil
  | cons first rest =>
    rw [List.length_cons] at odd
    exact .bind expr_reads fun _ => .left (chain_reads worded.tail (by omega))

theorem leading_reads (worded : Worded parts) : Reads parts (leading span parts) := by
  unfold leading
  split
  all_goals first | exact .unexpected | exact .skip (worded.head rfl) .nil

theorem unaryChain_reads : Reads parts (unaryChain parts) := by
  induction parts with
  | nil => exact .nil
  | cons p rest ih =>
    cases rest with
    | nil => exact expr_reads
    | cons q rest =>
      intro e done r member
      obtain ⟨a, made, done⟩ := bind_ok.1 done
      rcases List.mem_cons.1 member with rfl | member
      · exact Reads.single e done r List.mem_cons_self
      · exact ih a made r member

theorem postfixOperator_reads (worded : Worded parts) :
    Reads parts (postfixOperator span parts) := by
  unfold postfixOperator
  split
  · exact .skip (worded.head rfl) .nil
  · exact .unexpected

theorem update_reads : Reads parts (update span parts) := by
  unfold update
  split
  · exact .left expr_reads
  · exact .bind expr_reads fun _ => .single
  · exact .unexpected

theorem applySuffixes_reads (e : Expr) : Reads parts (applySuffixes e parts) := by
  induction parts generalizing e with
  | nil => exact .nil
  | cons p rest ih =>
    refine .piece fun piece _ => ?_
    cases piece with
    | suffix s => exact ih _
    | _ => exact .unexpected

theorem leftHandSide_reads : Reads parts (leftHandSide span parts) := by
  cases parts with
  | nil => exact .nil
  | cons base suffixes => exact .bind expr_reads fun e => .left (applySuffixes_reads e)

theorem constructed_reads (callee : Expr) (arguments : List Item) :
    Reads parts (constructed callee arguments parts) := by
  induction parts generalizing callee arguments with
  | nil => exact .nil
  | cons p rest ih =>
    refine .piece fun piece _ => ?_
    cases piece with
    | suffix s => cases s <;> exact ih _ _
    | _ => exact .unexpected

theorem newExpression_reads (first : ∀ p ∈ parts[0]?, p.Built) :
    Reads parts (newExpression span parts) := by
  unfold newExpression
  split
  · exact .skip (first _ rfl) (.bind expr_reads fun e => .left (constructed_reads e []))
  · exact .unexpected

theorem staticMember_reads : Reads parts (staticMember span parts) := by
  unfold staticMember
  split
  · exact .left name_reads
  · exact .unexpected

theorem computedMember_reads : Reads parts (computedMember span parts) := by
  unfold computedMember
  split
  · exact .left expr_reads
  · exact .unexpected

theorem item_reads : Reads [p] (item p) := .single

theorem arguments_reads : Reads parts (arguments parts) :=
  .left (.each fun _ => item_reads)

theorem spread_reads : Reads parts (spread span parts) := by
  unfold spread
  split
  · exact .left expr_reads
  · exact .unexpected

theorem wrapped_reads : Reads parts (wrapped span parts) := by
  unfold wrapped
  split
  · exact .left expr_reads
  · exact .unexpected

/-! ### Collections -/

theorem arraySlot_reads : Reads parts (arraySlot span parts) := by
  unfold arraySlot
  split
  · exact .nil
  · exact .left item_reads
  · exact .unexpected

theorem arrayLiteral_reads : Reads parts (arrayLiteral span parts) :=
  .left (.each fun _ => .single)

theorem objectLiteral_reads : Reads parts (objectLiteral span parts) :=
  .left (.each fun _ => .single)

theorem propertyAssignment_reads : Reads parts (propertyAssignment span parts) := by
  unfold propertyAssignment
  split
  · exact .bind key_reads fun _ => .left expr_reads
  · exact .unexpected

theorem method_reads : Reads parts (method span parts) := by
  unfold method
  split
  · exact .bind key_reads fun _ => .bind parameters_reads fun _ => .left block_reads
  · exact .unexpected

theorem shorthand_reads : Reads parts (shorthand span parts) := by
  unfold shorthand
  split
  · exact .left name_reads
  · exact .unexpected

theorem propertyKey_reads : Reads parts (propertyKey span parts) := by
  unfold propertyKey
  split
  · exact .single
  · exact .unexpected

/-! ### Functions and patterns -/

theorem bindingElement_reads : Reads parts (bindingElement span parts) := by
  unfold bindingElement
  split
  · exact .left pattern_reads
  · exact .bind pattern_reads fun _ => .left expr_reads
  · exact .unexpected

theorem restElement_reads : Reads parts (restElement span parts) := by
  unfold restElement
  split
  · exact .left pattern_reads
  · exact .unexpected

theorem arrayBindingSlot_reads : Reads parts (arrayBindingSlot span parts) := by
  unfold arrayBindingSlot
  split
  · exact .nil
  · exact .left pattern_reads
  · exact .unexpected

theorem arrayBinding_reads : Reads parts (arrayBinding span parts) :=
  .left (.each fun _ => .single)

theorem objectBindingProperty_reads : Reads parts (objectBindingProperty span parts) := by
  unfold objectBindingProperty
  split
  · exact .bind key_reads fun _ => .left pattern_reads
  · exact .unexpected

theorem bindingMembers_reads : Reads parts (bindingMembers parts) := by
  induction parts with
  | nil => exact .nil
  | cons p rest ih =>
    refine .piece fun piece _ => ?_
    cases piece with
    | bindingProperty q => exact .left ih
    | _ =>
      refine Reads.nil.append fun q _ => ?_
      cases q with
      | rest span inner =>
        cases inner with
        | identifier s name =>
          cases rest with
          | nil => exact .nil
          | cons next others => exact .fails
        | _ => exact .fails
      | _ => exact Reads.nil.append fun _ _ => .left ih

theorem objectBinding_reads : Reads parts (objectBinding span parts) :=
  .left bindingMembers_reads

theorem parameterList_reads : Reads parts (parameters parts) :=
  .left (.each fun _ => pattern_reads)

theorem functionBlock_reads : Reads parts (functionBlock span parts) :=
  .left (.each fun _ => stmt_reads)

theorem function_reads {kind : FunctionKind} : Reads parts (function kind span parts) := by
  unfold function
  split
  · exact .bind name_reads fun _ => .bind parameters_reads fun _ => .left block_reads
  · exact .bind parameters_reads fun _ => .left block_reads
  · exact .unexpected

/-- What is read after the first part. -/
theorem Reads.drop (first : ∀ p ∈ parts[0]?, p.Built) (reads : Reads (parts.drop 1) m) :
    Reads parts m := by
  cases parts with
  | nil => exact .nil
  | cons p rest => exact .skip (first p rfl) reads

theorem functionDeclaration_reads (first : ∀ p ∈ parts[0]?, p.Built) :
    Reads parts (functionDeclaration span parts) :=
  .drop first (.left function_reads)

theorem functionExpression_reads (first : ∀ p ∈ parts[0]?, p.Built) :
    Reads parts (functionExpression span parts) :=
  .drop first (.left function_reads)

theorem arrowParameters_reads : Reads parts (arrowParameters span parts) := by
  unfold arrowParameters
  split
  · exact .single
  · exact .unexpected

theorem arrowBody_reads : Reads parts (arrowBody span parts) := by
  unfold arrowBody
  split
  · exact .single
  · exact .unexpected

theorem arrowFunction_reads : Reads parts (arrowFunction span parts) := by
  unfold arrowFunction
  split
  · exact .bind parameters_reads fun _ => .single
  · exact .unexpected

/-! ### Statements -/

theorem declarationKind_reads (worded : Worded parts) :
    Reads parts (declarationKind span parts) := by
  unfold declarationKind
  split
  all_goals first | exact .unexpected | exact .skip (worded.head rfl) .nil

theorem declarator_reads : Reads parts (declarator span parts) := by
  unfold declarator
  split
  · exact .left pattern_reads
  · exact .bind pattern_reads fun _ => .left expr_reads
  · exact .unexpected

theorem variableDeclaration_reads : Reads parts (variableDeclaration span parts) := by
  cases parts with
  | nil => exact .nil
  | cons kind rest => exact .bind .single fun kind => .left (.each fun _ => .single)

theorem variableStatement_reads : Reads parts (variableStatement span parts) := by
  unfold variableStatement
  split
  · exact .left .single
  · exact .unexpected

theorem ifStatement_reads (first : ∀ p ∈ parts[0]?, p.Built) (fourth : ∀ p ∈ parts[3]?, p.Built) :
    Reads parts (ifStatement span parts) := by
  unfold ifStatement
  split
  · exact .skip (first _ rfl) (.bind expr_reads fun _ => .left stmt_reads)
  · refine .skip (first _ rfl) (.bind expr_reads fun _ => .bind stmt_reads fun _ => ?_)
    exact .skip (fourth _ rfl) (.left stmt_reads)
  · exact .unexpected

theorem forInit_reads : Reads parts (forInit span parts) := by
  unfold forInit
  split
  · exact .single
  · exact .unexpected

theorem forTest_reads : Reads parts (forTest span parts) := by
  unfold forTest
  split
  · exact .left expr_reads
  · exact .unexpected

theorem forUpdate_reads : Reads parts (forUpdate span parts) := by
  unfold forUpdate
  split
  · exact .left expr_reads
  · exact .unexpected

/-- A clause of a counting loop is no statement. -/
def Piece.isClause : Piece → Bool
  | .forInit _ | .forTest _ | .forUpdate _ => true
  | _ => false

/-- The body of a loop is read last, after the clauses. -/
theorem forClauses_reads {init : ForInit} {test update : Option Expr}
    (clauses : ∀ p ∈ parts.dropLast, ∀ piece, p.piece = .ok piece → piece.isClause = true) :
    Reads parts (forClauses span init test update parts) := by
  induction parts generalizing init test update with
  | nil => exact .nil
  | cons p rest ih =>
    refine .piece fun piece made => ?_
    have more {init : ForInit} {test update : Option Expr} :
        Reads rest (forClauses span init test update rest) := by
      refine ih fun q member => clauses q ?_
      cases rest with
      | nil => cases member
      | cons next others => exact List.mem_cons_of_mem _ member
    cases piece with
    | forInit | forTest | forUpdate => exact more
    | _ =>
      cases rest with
      | nil => exact .nil
      | cons next others => cases clauses p List.mem_cons_self _ made

theorem forStatement_reads (first : ∀ p ∈ parts[0]?, p.Built)
    (clauses : ∀ p ∈ (parts.drop 1).dropLast, ∀ piece, p.piece = .ok piece →
      piece.isClause = true) :
    Reads parts (forStatement span parts) :=
  .drop first (forClauses_reads clauses)

theorem forDeclaration_reads : Reads parts (forDeclaration span parts) := by
  unfold forDeclaration
  split
  · exact .bind .single fun _ => .left pattern_reads
  · exact .unexpected

theorem forEachLeft_reads : Reads parts (forEachLeft span parts) := by
  unfold forEachLeft
  split
  · exact .single
  · exact .unexpected

theorem forEachStatement_reads (first : ∀ p ∈ parts[0]?, p.Built)
    (third : ∀ p ∈ parts[2]?, p.Built) : Reads parts (forEachStatement span parts) := by
  unfold forEachStatement
  split
  · refine .skip (first _ rfl) (.piece fun piece _ => .skip (third _ rfl) ?_)
    cases piece with
    | eachTarget kind target => exact .bind expr_reads fun _ => .left stmt_reads
    | _ => exact .unexpected
  · exact .unexpected

theorem whileStatement_reads (first : ∀ p ∈ parts[0]?, p.Built) :
    Reads parts (whileStatement span parts) := by
  unfold whileStatement
  split
  · exact .skip (first _ rfl) (.bind expr_reads fun _ => .left stmt_reads)
  · exact .unexpected

theorem doWhileStatement_reads (first : ∀ p ∈ parts[0]?, p.Built)
    (third : ∀ p ∈ parts[2]?, p.Built) : Reads parts (doWhileStatement span parts) := by
  unfold doWhileStatement
  split
  · refine .skip (first _ rfl) (.bind stmt_reads fun _ => ?_)
    exact .skip (third _ rfl) (.left expr_reads)
  · exact .unexpected

theorem returnStatement_reads (first : ∀ p ∈ parts[0]?, p.Built) :
    Reads parts (returnStatement span parts) := by
  unfold returnStatement
  split
  · exact .skip (first _ rfl) .nil
  · exact .skip (first _ rfl) (.left expr_reads)
  · exact .unexpected

theorem throwStatement_reads (first : ∀ p ∈ parts[0]?, p.Built) :
    Reads parts (throwStatement span parts) := by
  unfold throwStatement
  split
  · exact .skip (first _ rfl) (.left expr_reads)
  · exact .unexpected

theorem catchClause_reads (first : ∀ p ∈ parts[0]?, p.Built) :
    Reads parts (catchClause span parts) := by
  unfold catchClause
  split
  · exact .skip (first _ rfl) (.left block_reads)
  · exact .skip (first _ rfl) (.bind pattern_reads fun _ => .left block_reads)
  · exact .unexpected

theorem finallyClause_reads (first : ∀ p ∈ parts[0]?, p.Built) :
    Reads parts (finallyClause span parts) := by
  unfold finallyClause
  split
  · exact .skip (first _ rfl) (.left block_reads)
  · exact .unexpected

theorem tryClauses_reads {handler : Handler} {finalizer : Option Block} :
    Reads parts (tryClauses handler finalizer parts) := by
  induction parts generalizing handler finalizer with
  | nil => exact .nil
  | cons p rest ih =>
    refine .piece fun piece _ => ?_
    cases piece with
    | handler | finalizer => exact ih
    | _ => exact .unexpected

theorem tryStatement_reads (first : ∀ p ∈ parts[0]?, p.Built) :
    Reads parts (tryStatement span parts) := by
  unfold tryStatement
  split
  · exact .skip (first _ rfl) (.bind block_reads fun _ => .left tryClauses_reads)
  · exact .unexpected

theorem switchCase_reads (first : ∀ p ∈ parts[0]?, p.Built) :
    Reads parts (switchCase span parts) := by
  unfold switchCase
  split
  · exact .skip (first _ rfl) (.bind expr_reads fun _ => .left (.each fun _ => stmt_reads))
  · exact .skip (first _ rfl) (.left (.each fun _ => stmt_reads))
  · exact .nil

theorem switchStatement_reads (first : ∀ p ∈ parts[0]?, p.Built) :
    Reads parts (switchStatement span parts) := by
  unfold switchStatement
  split
  · exact .skip (first _ rfl) (.bind expr_reads fun _ => .left (.each fun _ => .single))
  · exact .unexpected

theorem expressionStatement_reads : Reads parts (expressionStatement span parts) := by
  unfold expressionStatement
  split
  · exact .left expr_reads
  · exact .unexpected

theorem program_reads (worded : Worded parts) : Reads parts (program parts) := by
  intro piece done p member
  by_cases last : p.rule = .endOfInput
  · exact worded p member (by rw [last]; rfl)
  · have reads : Reads (parts.filter (·.rule != .endOfInput)) (program parts) :=
      .left (.each fun _ => stmt_reads)
    exact reads piece done p (List.mem_filter.2 ⟨member, by simpa using last⟩)

/-! ### What the grammar says of the parts that are not read -/

section Admitted

open Grammar

variable {rs : List Rule} {a b e : Peg Rule}

theorem admits_lit {cs : String} (admitted : (lit cs).Admits script rs) : rs = [] := by
  cases admitted
  rfl

theorem admits_word {k : Keyword} (admitted : (word k).Admits script rs) : rs = [.keyword k] :=
  (Peg.admits_rule (by cases k <;> decide)).1 admitted

theorem admits_inParens (admitted : (inParens e).Admits script rs) : e.Admits script rs := by
  obtain ⟨_, _, rfl, first, admitted⟩ := Peg.admits_seq.1 admitted
  obtain ⟨_, _, rfl, second, third⟩ := Peg.admits_seq.1 admitted
  simpa [admits_lit first, admits_lit third] using second

theorem admits_anyOf {all : List Rule} (some : all ≠ []) (admitted : (anyOf all).Admits script rs) :
    ∃ r ∈ all, (Peg.rule r).Admits script rs := by
  induction all with
  | nil => exact absurd rfl some
  | cons r rest ih =>
    cases rest with
    | nil => exact ⟨r, List.mem_cons_self, admitted⟩
    | cons next others =>
      cases admitted with
      | left here => exact ⟨r, List.mem_cons_self, here⟩
      | right there =>
        obtain ⟨q, member, admitted⟩ := ih (List.cons_ne_nil _ _) there
        exact ⟨q, List.mem_cons_of_mem _ member, admitted⟩

/-- A choice among rules that give nodes gives one node. -/
theorem admits_oneOf {all : List Rule} (some : all ≠ [])
    (given : ∀ r ∈ all, (script.define r).kind ≠ .silent)
    (admitted : (anyOf all).Admits script rs) : ∃ r ∈ all, rs = [r] := by
  obtain ⟨r, member, admitted⟩ := admits_anyOf some admitted
  exact ⟨r, member, (Peg.admits_rule (given r member)).1 admitted⟩

theorem admits_statement (admitted : (Peg.rule .statement).Admits script rs) : ∃ r, rs = [r] := by
  cases admitted with
  | node given => exact absurd rfl given
  | silent _ admitted =>
    obtain ⟨r, _, same⟩ := admits_oneOf (by simp) (by decide) admitted
    exact ⟨r, same⟩

theorem admits_infixOperator (admitted : (Peg.rule .infixOperator).Admits script rs) :
    ∃ r, rs = [r] := by
  cases admitted with
  | node given => exact absurd rfl given
  | silent _ admitted =>
    obtain ⟨r, _, same⟩ := admits_oneOf (by simp [infixOps]) (by decide) admitted
    exact ⟨r, same⟩

theorem starts_word {k : Keyword} (admitted : (Peg.seq (word k) b).Admits script rs) :
    ∀ r ∈ rs[0]?, r.isWord = true := by
  obtain ⟨_, _, rfl, first, _⟩ := Peg.admits_seq.1 admitted
  rw [admits_word first]
  rintro r ⟨⟩
  rfl

theorem ifStatement_rules (admitted : (script.define .ifStatement).body.Admits script rs) :
    ∀ r ∈ rs[3]?, r.isWord = true := by
  obtain ⟨_, _, rfl, first, admitted⟩ := Peg.admits_seq.1 admitted
  obtain ⟨_, _, rfl, second, admitted⟩ := Peg.admits_seq.1 admitted
  obtain ⟨_, _, rfl, third, fourth⟩ := Peg.admits_seq.1 admitted
  obtain rfl := admits_word first
  obtain rfl := (Peg.admits_rule (by decide)).1 (admits_inParens second)
  obtain ⟨yes, rfl⟩ := admits_statement third
  rcases Peg.admits_opt.1 fourth with rfl | admitted
  · simp
  · obtain ⟨_, _, rfl, other, _⟩ := Peg.admits_seq.1 admitted
    obtain rfl := admits_word other
    rintro r ⟨⟩
    rfl

theorem doWhileStatement_rules
    (admitted : (script.define .doWhileStatement).body.Admits script rs) :
    ∀ r ∈ rs[2]?, r.isWord = true := by
  obtain ⟨_, _, rfl, first, admitted⟩ := Peg.admits_seq.1 admitted
  obtain ⟨_, _, rfl, second, admitted⟩ := Peg.admits_seq.1 admitted
  obtain ⟨_, _, rfl, third, _⟩ := Peg.admits_seq.1 admitted
  obtain rfl := admits_word first
  obtain ⟨body, rfl⟩ := admits_statement second
  obtain rfl := admits_word third
  rintro r ⟨⟩
  rfl

theorem forEachStatement_rules
    (admitted : (script.define .forEachStatement).body.Admits script rs) :
    ∀ r ∈ rs[2]?, r.isWord = true := by
  obtain ⟨_, _, rfl, first, admitted⟩ := Peg.admits_seq.1 admitted
  obtain ⟨_, _, rfl, open_, admitted⟩ := Peg.admits_seq.1 admitted
  obtain ⟨_, _, rfl, second, admitted⟩ := Peg.admits_seq.1 admitted
  obtain ⟨_, _, rfl, third, _⟩ := Peg.admits_seq.1 admitted
  obtain rfl := admits_word first
  obtain rfl := admits_lit open_
  obtain rfl := (Peg.admits_rule (by decide)).1 second
  obtain ⟨r, member, rfl⟩ := admits_oneOf (by simp) (by decide) third
  rintro _ ⟨⟩
  simp only [List.mem_cons, List.not_mem_nil, or_false] at member
  rcases member with rfl | rfl <;> rfl

theorem switchCase_rules (admitted : (script.define .switchCase).body.Admits script rs) :
    ∀ r ∈ rs[0]?, r.isWord = true := by
  obtain ⟨_, _, rfl, first, _⟩ := Peg.admits_seq.1 admitted
  cases first with
  | left admitted =>
    obtain ⟨_, _, rfl, first, _⟩ := Peg.admits_seq.1 admitted
    obtain rfl := admits_word first
    rintro r ⟨⟩
    rfl
  | right admitted =>
    obtain rfl := admits_word admitted
    rintro r ⟨⟩
    rfl

/-- The clauses of a counting loop stand between its word and its body. -/
theorem forStatement_rules (admitted : (script.define .forStatement).body.Admits script rs) :
    ∀ r ∈ (rs.drop 1).dropLast, r = .forInit ∨ r = .forTest ∨ r = .forUpdate := by
  obtain ⟨_, _, rfl, first, admitted⟩ := Peg.admits_seq.1 admitted
  obtain ⟨_, _, rfl, open_, admitted⟩ := Peg.admits_seq.1 admitted
  obtain ⟨_, _, rfl, init, admitted⟩ := Peg.admits_seq.1 admitted
  obtain ⟨_, _, rfl, stop, admitted⟩ := Peg.admits_seq.1 admitted
  obtain ⟨_, _, rfl, test, admitted⟩ := Peg.admits_seq.1 admitted
  obtain ⟨_, _, rfl, stop', admitted⟩ := Peg.admits_seq.1 admitted
  obtain ⟨_, _, rfl, update, admitted⟩ := Peg.admits_seq.1 admitted
  obtain ⟨_, _, rfl, close, body⟩ := Peg.admits_seq.1 admitted
  obtain rfl := admits_word first
  obtain rfl := admits_lit open_
  obtain rfl := admits_lit stop
  obtain rfl := admits_lit stop'
  obtain rfl := admits_lit close
  obtain ⟨s, rfl⟩ := admits_statement body
  have init := (Peg.admits_opt.1 init).imp_right (Peg.admits_rule (by decide)).1
  have test := (Peg.admits_opt.1 test).imp_right (Peg.admits_rule (by decide)).1
  have update := (Peg.admits_opt.1 update).imp_right (Peg.admits_rule (by decide)).1
  rcases init with rfl | rfl <;> rcases test with rfl | rfl <;>
    rcases update with rfl | rfl <;> simp

theorem even_of_pairs
    (admitted : (Peg.star (.seq (.rule .infixOperator) (.rule .unary))).Admits script rs) :
    rs.length % 2 = 0 := by
  generalize same : Peg.star (.seq (.rule Rule.infixOperator) (.rule Rule.unary)) = e at admitted
  induction admitted with
  | none => rfl
  | more _ pair ih =>
    cases same
    obtain ⟨_, _, rfl, operator, operand⟩ := Peg.admits_seq.1 pair
    obtain ⟨r, rfl⟩ := admits_infixOperator operator
    obtain rfl := (Peg.admits_rule (by decide)).1 operand
    have even := ih rfl
    simp only [List.length_append, List.length_cons, List.length_nil]
    omega
  | _ => cases same

theorem binary_rules (admitted : (script.define .binary).body.Admits script rs) :
    rs.length % 2 = 1 := by
  obtain ⟨_, _, rfl, first, others⟩ := Peg.admits_seq.1 admitted
  obtain rfl := (Peg.admits_rule (by decide)).1 first
  have even := even_of_pairs others
  rw [List.singleton_append, List.length_cons]
  omega

/-- The parts of rules that are made of words alone. -/
theorem words_only {rule : Rule}
    (wordy : rule = .boolean ∨ rule = .nullLiteral ∨ rule = .thisLiteral ∨
      rule = .emptyStatement ∨ rule = .breakStatement ∨ rule = .continueStatement)
    (admitted : (script.define rule).body.Admits script rs) : ∀ r ∈ rs, r.isWord = true := by
  have jump {k : Keyword} (admitted : (Peg.seq (word k) semicolon).Admits script rs) :
      ∀ r ∈ rs, r.isWord = true := by
    obtain ⟨_, _, rfl, first, last⟩ := Peg.admits_seq.1 admitted
    obtain rfl := admits_word first
    have none : ∀ {ss}, semicolon.Admits script ss → ss = [] := fun admitted =>
      (Peg.admits_opt.1 admitted).elim id admits_lit
    simp [none last, Rule.isWord]
  have single {k : Keyword} (admitted : (word k).Admits script rs) : ∀ r ∈ rs, r.isWord = true := by
    simp [admits_word admitted, Rule.isWord]
  rcases wordy with rfl | rfl | rfl | rfl | rfl | rfl
  · obtain ⟨r, member, rfl⟩ := admits_oneOf (by simp) (by decide) admitted
    simp only [List.mem_cons, List.not_mem_nil, or_false] at member
    rcases member with rfl | rfl <;> simp [Rule.isWord]
  · exact single admitted
  · exact single admitted
  · simp [admits_lit admitted]
  · exact jump admitted
  · exact jump admitted

end Admitted

/-! ### Nodes -/

theorem piece_of_isWord {rule : Rule} {text : String} (word : rule.isWord = true) :
    piece rule span text parts = .ok (.token text) := by
  cases rule with
  | keyword | identifier | propertyName | hexNumber | decimalNumber | doubleChars | singleChars
  | templateChars | assignOp | infixOp | unaryOp | updateOp | endOfInput => rfl
  | _ => cases word

theorem isClause_of_piece {rule : Rule} {text : String} {made : Piece}
    (clause : rule = .forInit ∨ rule = .forTest ∨ rule = .forUpdate)
    (built : piece rule span text parts = .ok made) : made.isClause = true := by
  rcases clause with rfl | rfl | rfl
  · simp only [Tree.piece, forInit] at built
    split at built
    · obtain ⟨piece, _, built⟩ := bind_ok.1 built
      split at built
      · cases built
        rfl
      · obtain ⟨e, _, built⟩ := bind_ok.1 built
        cases built
        rfl
    · cases built
  · simp only [Tree.piece, forTest] at built
    split at built
    · obtain ⟨e, _, built⟩ := bind_ok.1 built
      cases built
      rfl
    · cases built
  · simp only [Tree.piece, forUpdate] at built
    split at built
    · obtain ⟨e, _, built⟩ := bind_ok.1 built
      cases built
      rfl
    · cases built

/-- The parts of a node of a match. -/
structure Given (rule : Rule) (parts : List Part) : Prop where
  worded : Worded parts
  clauses : ∀ p ∈ parts, p.rule = .forInit ∨ p.rule = .forTest ∨ p.rule = .forUpdate →
    ∀ piece, p.piece = .ok piece → piece.isClause = true
  rules : (script.define rule).kind ≠ .token →
    (script.define rule).body.Admits script (parts.map Part.rule)

theorem Worded.at (worded : Worded parts) {i : Nat}
    (word : ∀ r ∈ (parts.map Part.rule)[i]?, r.isWord = true) : ∀ p ∈ parts[i]?, p.Built := by
  intro p there
  refine worded p (List.mem_of_getElem? there) (word p.rule ?_)
  rw [Option.mem_def] at there
  simp [there]

theorem Worded.all (worded : Worded parts) (words : ∀ r ∈ parts.map Part.rule, r.isWord = true) :
    ∀ p ∈ parts, p.Built :=
  fun p member => worded p member (words _ (List.mem_map_of_mem member))

theorem Given.between (given : Given .forStatement parts) :
    ∀ p ∈ (parts.drop 1).dropLast, ∀ piece, p.piece = .ok piece → piece.isClause = true := by
  intro p member
  have inside : p ∈ parts := List.mem_of_mem_drop ((List.dropLast_sublist _).subset member)
  refine given.clauses p inside (forStatement_rules (given.rules nofun) _ ?_)
  rw [← List.map_drop, ← List.map_dropLast]
  exact List.mem_map_of_mem member

/-- A node that is not a word is built only if its children are. -/
theorem piece_reads {rule : Rule} {text : String} (given : Given rule parts)
    (other : rule.isWord = false) : Reads parts (piece rule span text parts) := by
  have rules := given.rules
  have worded := given.worded
  cases rule with
  | keyword | identifier | propertyName | hexNumber | decimalNumber | doubleChars | singleChars
  | templateChars | assignOp | infixOp | unaryOp | updateOp | endOfInput => cases other
  | boolean | nullLiteral | thisLiteral | emptyStatement | breakStatement | continueStatement =>
    exact .skipAll (worded.all (words_only (by simp) (rules nofun)))
  | number => exact number_reads
  | string => exact string_reads
  | template => exact .left (templateParts_reads "")
  | expression => exact expression_reads
  | assignment => exact assignment_reads
  | assignOperator => exact assignOperator_reads worded
  | conditional => exact conditional_reads
  | binary =>
    exact binary_reads worded (by simpa using binary_rules (rules nofun))
  | unary => exact .left unaryChain_reads
  | unaryOperator => exact leading_reads worded
  | update => exact update_reads
  | postfixOperator => exact postfixOperator_reads worded
  | leftHandSide => exact leftHandSide_reads
  | newExpression => exact newExpression_reads (worded.at (starts_word (rules nofun)))
  | staticMember => exact staticMember_reads
  | computedMember => exact computedMember_reads
  | arguments => exact arguments_reads
  | spread => exact spread_reads
  | parenthesized | substitution | computedKey => exact wrapped_reads
  | arrayLiteral => exact arrayLiteral_reads
  | arraySlot => exact arraySlot_reads
  | objectLiteral => exact objectLiteral_reads
  | propertyAssignment => exact propertyAssignment_reads
  | method => exact method_reads
  | shorthand => exact shorthand_reads
  | propertyKey => exact propertyKey_reads
  | functionDeclaration => exact functionDeclaration_reads (worded.at (starts_word (rules nofun)))
  | functionExpression => exact functionExpression_reads (worded.at (starts_word (rules nofun)))
  | parameters => exact parameterList_reads
  | functionBody | blockStatement => exact functionBlock_reads
  | arrowFunction => exact arrowFunction_reads
  | arrowParameters => exact arrowParameters_reads
  | arrowBody => exact arrowBody_reads
  | bindingElement => exact bindingElement_reads
  | restElement => exact restElement_reads
  | arrayBinding => exact arrayBinding_reads
  | arrayBindingSlot => exact arrayBindingSlot_reads
  | objectBinding => exact objectBinding_reads
  | objectBindingProperty => exact objectBindingProperty_reads
  | variableStatement => exact variableStatement_reads
  | variableDeclaration => exact variableDeclaration_reads
  | declarationKind => exact declarationKind_reads worded
  | declarator => exact declarator_reads
  | ifStatement =>
    exact ifStatement_reads (worded.at (starts_word (rules nofun)))
      (worded.at (ifStatement_rules (rules nofun)))
  | forStatement => exact forStatement_reads (worded.at (starts_word (rules nofun))) given.between
  | forInit => exact forInit_reads
  | forTest => exact forTest_reads
  | forUpdate => exact forUpdate_reads
  | forEachStatement =>
    exact forEachStatement_reads (worded.at (starts_word (rules nofun)))
      (worded.at (forEachStatement_rules (rules nofun)))
  | forEachLeft => exact forEachLeft_reads
  | forDeclaration => exact forDeclaration_reads
  | whileStatement => exact whileStatement_reads (worded.at (starts_word (rules nofun)))
  | doWhileStatement =>
    exact doWhileStatement_reads (worded.at (starts_word (rules nofun)))
      (worded.at (doWhileStatement_rules (rules nofun)))
  | returnStatement => exact returnStatement_reads (worded.at (starts_word (rules nofun)))
  | throwStatement => exact throwStatement_reads (worded.at (starts_word (rules nofun)))
  | tryStatement => exact tryStatement_reads (worded.at (starts_word (rules nofun)))
  | catchClause => exact catchClause_reads (worded.at (starts_word (rules nofun)))
  | finallyClause => exact finallyClause_reads (worded.at (starts_word (rules nofun)))
  | switchStatement => exact switchStatement_reads (worded.at (starts_word (rules nofun)))
  | switchCase => exact switchCase_reads (worded.at (switchCase_rules (rules nofun)))
  | expressionStatement => exact expressionStatement_reads
  | program => exact program_reads worded
  | reservedWord | nameStart | nameChar | exponent | escape | infixOperator | primary | objectMember
  | bindingTarget | objectBindingMember | statement => exact .unexpected

end Tree

/-! ### Everything below a node -/

/-- A node of a match and all that stands below it; words are leaves. -/
inductive Grammar.Node.Holds : Grammar.Node Rule → Grammar.Node Rule → Prop where
  | refl (n : Grammar.Node Rule) : Holds n n
  | inside {n c m : Grammar.Node Rule} :
      n.rule.isWord = false → c ∈ n.children → Holds c m → Holds n m

theorem Grammar.Node.Lies.of_holds {source : String} {n m : Grammar.Node Rule}
    (lies : n.Lies script source) (holds : n.Holds m) : m.Lies script source := by
  induction holds with
  | refl => exact lies
  | inside _ member _ ih =>
    cases lies with
    | intro _ _ _ _ children => exact ih (children _ member)

namespace Tree

theorem given_children {source : String} {n : Grammar.Node Rule} (lies : n.Lies script source) :
    Given n.rule (n.children.map build) := by
  have rules : (n.children.map build).map Part.rule = n.children.map Grammar.Node.rule := by
    simp [build_eq]
  refine ⟨fun p member word => ?_, fun p member clause piece made => ?_, fun kind => ?_⟩
  · obtain ⟨m, _, rfl⟩ := List.mem_map.1 member
    rw [build_eq] at word ⊢
    exact ⟨_, piece_of_isWord word⟩
  · obtain ⟨m, _, rfl⟩ := List.mem_map.1 member
    rw [build_eq] at clause made
    exact isClause_of_piece clause made
  · rw [rules]
    cases lies with
    | intro _ _ _ admitted _ => exact admitted kind

/-- A node is built only if everything below it is. -/
theorem built_of_holds {source : String} {n m : Grammar.Node Rule} (holds : n.Holds m)
    (lies : n.Lies script source) (built : (build n).Built) : (build m).Built := by
  induction holds with
  | refl => exact built
  | @inside n c m other member _ ih =>
    have below : c.Lies script source := by
      cases lies with
      | intro _ _ _ _ children => exact children c member
    refine ih below ?_
    obtain ⟨piece, made⟩ := built
    rw [build_eq] at made
    exact piece_reads (given_children lies) other piece made _ (List.mem_map_of_mem member)

end Tree

end Scriptlet
