import Scriptlet.Proofs.Grammar.Bracket
import Scriptlet.Proofs.Grammar.Word
import Scriptlet.Proofs.Layout.Accepted

/-!
Expressions of a single operand.

An operand that no operator and no member can follow is all of the expression around it, and the
rules in between build what the operand stands for. Main statements: `conditional_operand` and
`assignment_operand`.
-/

namespace Scriptlet

open Grammar

variable {c d t : Cursor} {nodes inner : List (Grammar.Node Rule)}

namespace Grammar

/-- The forms of an operand. -/
def operandRules : List Rule :=
  [.functionExpression, .thisLiteral, .nullLiteral, .boolean, .number, .string, .template,
    .arrayLiteral, .objectLiteral, .parenthesized, .identifier]

/-- What an expression may go on with after an operand. -/
def continuations : List (Peg Rule) :=
  [anyOf [.staticMember, .computedMember, .arguments], .rule .postfixOperator,
    .seq (.rule .infixOperator) (.rule .unary),
    seqs [lit "?", .rule .assignment, lit ":", .rule .assignment]]

/-- A place at which no expression goes on. -/
structure Quiet (c : Cursor) : Prop where
  clean : layoutUnit c.rest = none
  absent : ∀ e ∈ continuations, Absent e c

/-- Whether an expression is seen not to go on. -/
def Sight.quiet (s : Sight) : Bool :=
  s.clean && continuations.all fun e => s.peek e == .refused

theorem Quiet.of_sight {s : Sight} (fits : s.Fits c) (seen : s.quiet = true) : Quiet c := by
  simp only [Sight.quiet, Bool.and_eq_true, List.all_eq_true, beq_iff_eq] at seen
  exact ⟨fits.clean seen.1, fun e member => Absent.of_sight fits (seen.2 e member)⟩

theorem Absent.refused {r : Rule} (none : Absent (.rule r) c) : Refused (.rule r) c := by
  obtain ⟨result, derives⟩ := exists_derives_rule r .top c
  cases result with
  | matched nodes d => exact none.elim derives
  | refused => exact derives

end Grammar

namespace Tree

/-- The rule builds from a single part what that part stands for. -/
def Relays (r : Rule) : Prop :=
  ∀ span text p, piece r span text [p] = p.expr.map Piece.expr

theorem relays_of_bind {r : Rule}
    (built : ∀ span text p, piece r span text [p] = (do return .expr (← p.expr))) : Relays r := by
  intro span text p
  rw [built]
  cases p.expr <;> rfl

theorem relays_conditional : Relays .conditional := relays_of_bind fun _ _ _ => rfl

theorem relays_update : Relays .update := relays_of_bind fun _ _ _ => rfl

theorem relays_assignment : Relays .assignment := relays_of_bind fun _ _ _ => rfl

theorem relays_parenthesized : Relays .parenthesized := relays_of_bind fun _ _ _ => rfl

theorem relays_unary : Relays .unary := relays_of_bind fun _ _ _ => rfl

theorem relays_binary : Relays .binary := by
  intro span text p
  change binary span [p] = _
  simp only [binary, chain]
  cases p.expr <;> rfl

theorem relays_leftHandSide : Relays .leftHandSide := by
  intro span text p
  change leftHandSide span [p] = _
  simp only [leftHandSide, applySuffixes]
  cases p.expr <;> rfl

theorem relays_expression : Relays .expression := by
  intro span text p
  change expression span [p] = _
  simp only [expression, each]
  cases p.expr <;> rfl

theorem expr_of_piece {p : Part} {m : Build Expr} (stands : p.piece = m.map Piece.expr) :
    p.expr = m := by
  unfold Part.expr
  rw [stands]
  cases m <;> rfl

theorem expr_of_relays {r : Rule} (relays : Relays r) (span : Span) (text : String)
    (n : Grammar.Node Rule) :
    (build ⟨r, span, text, [n]⟩).expr = (build n).expr := by
  refine expr_of_piece ?_
  rw [build_eq]
  exact relays span text (build n)

end Tree

open Scriptlet.Tree

/-- A conditional expression starts with an operand, and is nothing else if it cannot go on after
that. -/
theorem conditional_operand (matched : Matches (.rule .conditional) c nodes d)
    (leading : Absent (.rule .unaryOperator) c) (construct : Absent (.rule .newExpression) c.skip) :
    ∃ inner t, Matches (.rule .primary) c.skip inner t ∧ (Quiet t.skip → d = t.skip ∧
      ∃ w, nodes = [w] ∧ ∀ n, inner = [n] → (build w).expr = (build n).expr) := by
  obtain ⟨_, rfl, inside₁⟩ := (matches_plain rfl).1 matched
  obtain ⟨_, _, binaryEnd, rfl, binary, choice⟩ := matches_seq.1 inside₁
  obtain ⟨_, rfl, inside₂⟩ := (matches_plain rfl).1 binary
  obtain ⟨_, _, unaryEnd, rfl, unary, operations⟩ := matches_seq.1 inside₂
  obtain ⟨_, rfl, inside₃⟩ := (matches_plain rfl).1 unary
  obtain ⟨_, _, start, rfl, operators, update⟩ := matches_seq.1 inside₃
  obtain ⟨rfl, rfl⟩ := leading.of_star operators
  obtain ⟨_, rfl, inside₄⟩ := (matches_plain rfl).1 update
  obtain ⟨_, _, leftEnd, rfl, left, postfix_⟩ := matches_seq.1 inside₄
  obtain ⟨_, rfl, inside₅⟩ := (matches_plain rfl).1 left
  obtain ⟨inner, _, t, rfl, operand, suffixes⟩ := matches_seq.1 inside₅
  have primary : Matches (.rule .primary) start.skip inner t :=
    (matches_alt.1 operand).elim construct.elim And.right
  refine ⟨inner, t, primary, fun quiet => ?_⟩
  have absent := quiet.absent
  simp only [continuations, List.mem_cons, List.not_mem_nil, or_false, forall_eq_or_imp, forall_eq]
    at absent
  obtain ⟨noSuffix, noPostfix, noOperation, noChoice⟩ := absent
  have stay : t.skip.skip = t.skip := Cursor.skip_of_clean quiet.clean
  obtain ⟨rfl, rfl⟩ := noSuffix.of_star suffixes
  rw [stay] at postfix_
  obtain ⟨rfl, rfl⟩ := noPostfix.of_opt postfix_
  rw [stay] at operations
  obtain ⟨rfl, rfl⟩ := noOperation.of_star operations
  rw [stay] at choice
  obtain ⟨rfl, rfl⟩ := noChoice.of_opt choice
  refine ⟨rfl, _, rfl, ?_⟩
  rintro n rfl
  simp only [List.append_nil, List.nil_append, expr_of_relays relays_conditional,
    expr_of_relays relays_binary, expr_of_relays relays_unary, expr_of_relays relays_update,
      expr_of_relays relays_leftHandSide]

/-- An assignment that is no arrow function starts with an operand. If the operand cannot go on, an
operator and a value may follow. -/
theorem assignment_operand (matched : Matches (.rule .assignment) c nodes d)
    (arrow : Absent (.rule .arrowFunction) c) (leading : Absent (.rule .unaryOperator) c)
    (construct : Absent (.rule .newExpression) c.skip) :
    ∃ inner t, Matches (.rule .primary) c.skip inner t ∧ (Quiet t.skip →
      ∃ w more, nodes = [⟨.assignment, ⟨c.pos, d.pos⟩, "", w :: more⟩] ∧
        (∀ n, inner = [n] → (build w).expr = (build n).expr) ∧
        Matches (.opt (.seq (.rule .assignOperator) (.rule .assignment))) t.skip more d) := by
  obtain ⟨_, rfl, inside⟩ := (matches_plain rfl).1 matched
  rcases matches_alt.1 inside with function | ⟨-, operation⟩
  · exact arrow.elim function
  · obtain ⟨_, more, e, rfl, conditional, assigned⟩ := matches_seq.1 operation
    obtain ⟨inner, t, primary, alone⟩ := conditional_operand conditional leading construct
    refine ⟨inner, t, primary, fun quiet => ?_⟩
    obtain ⟨rfl, w, rfl, same⟩ := alone quiet
    rw [Cursor.skip_of_clean quiet.clean] at assigned
    exact ⟨w, more, rfl, same, assigned⟩

/-! ### Ends of elements -/

/-- What may come after an element of a list between brackets. -/
def ends : List Char :=
  [',', ')', ']', '\x7d']

/-- Whether an expression is refused at first sight in front of each of the characters. -/
def refusedAhead (cs : List Char) (e : Peg Rule) : Bool :=
  cs.all fun x => (Sight.ahead [x]).peek e == .refused

theorem peek_of_refusedAhead {cs : List Char} {e : Peg Rule} {x : Char}
    (seen : refusedAhead cs e = true)
    (among : x ∈ cs) : (Sight.ahead [x]).peek e = .refused :=
  eq_of_beq (List.all_eq_true.1 seen x among)

/-- A place at which an element has ended. -/
def Follows (c : Cursor) : Prop :=
  ∃ x ∈ ends, ∃ rest, c.rest = x :: rest

namespace Follows

theorem fits {x : Char} {rest : List Char} (among : x ∈ ends) (there : c.rest = x :: rest) :
    (Sight.ahead [x]).Fits c := by
  refine Sight.ahead_cons there ?_
  simp only [ends, List.mem_cons, List.not_mem_nil, or_false] at among
  rcases among with rfl | rfl | rfl | rfl <;> rfl

theorem quiet (follows : Follows c) : Quiet c := by
  obtain ⟨x, among, rest, there⟩ := follows
  have seen : (ends.all fun x => (Sight.ahead [x]).quiet) = true := rfl
  exact .of_sight (fits among there) (List.all_eq_true.1 seen x among)

theorem absent {e : Peg Rule} (follows : Follows c) (seen : refusedAhead ends e = true) :
    Absent e c := by
  obtain ⟨x, among, rest, there⟩ := follows
  exact Absent.of_sight (fits among there) (peek_of_refusedAhead seen among)

theorem head {x : Char} {rest : List Char} (follows : Follows c) (there : c.rest = x :: rest) :
    x ∈ ends := by
  obtain ⟨y, among, rest', there'⟩ := follows
  cases there.symm.trans there'
  exact among

end Follows

/-! ### Values -/

/-- An equals sign with a value is no longer operator. -/
theorem equals_of_value (matched : Matches (.seq (lit "=") (.rule .assignment)) c nodes d) :
    ∃ rest, c.rest = '=' :: rest ∧ Sight.equals.Fits c ∧
      Matches (.rule .assignment) (Cursor.skip ⟨rest, c.pos + bytes ['=']⟩) nodes d := by
  obtain ⟨_, _, ⟨rest, pos⟩, rfl, sign, value⟩ := matches_seq.1 matched
  obtain ⟨rfl, there, same⟩ := matches_text.1 sign
  simp only at same
  subst same
  refine ⟨rest, there, Sight.equals_fits there fun x head => ?_, value⟩
  obtain ⟨rest, rfl⟩ := List.head?_eq_some_iff.1 head
  have apart : refusedAhead ['=', '>'] (.rule .assignment) = true := rfl
  have none (among : x ∈ ['=', '>']) : False := by
    have clean : layoutUnit (x :: rest) = none := by
      simp only [List.mem_cons, List.not_mem_nil, or_false] at among
      rcases among with rfl | rfl <;> rfl
    rw [Cursor.skip_of_clean clean] at value
    exact (Absent.of_sight (Sight.ahead_cons rfl clean) (peek_of_refusedAhead apart among)).elim
      value
  exact ⟨fun same => none (by simp [same]), fun same => none (by simp [same])⟩

/-- What is read of an equals sign: nothing if a longer operator starts with it. -/
theorem decides_plain : Decides (Context.within .top .token) (script.define (.assignOp .plain)).body
    fun cs => Step.text ['='] cs >>= fun ds =>
      if (Step.text ['='] ds <|> Step.text ['>'] ds).isSome then none else some ds :=
  (Decides.text ['=']).seq (by nofun) (.not (.alt (.text ['=']) (.text ['>'])))

/-- After an operand, an equals sign is read as the plain operator. -/
theorem plain_of_equals {rest : List Char} (there : c.rest = '=' :: rest)
    (fits : Sight.equals.Fits c)
    (matched : Matches (.seq (.rule .assignOperator) (.rule .assignment)) c nodes d) :
    ∃ op more, nodes = op :: more ∧ (build op).piece = .ok (.assignOp .plain) ∧
      Matches (.rule .assignment) (Cursor.skip ⟨rest, c.pos + bytes ['=']⟩) more d := by
  obtain ⟨_, more, e, rfl, operator, value⟩ := matches_seq.1 matched
  obtain ⟨_, rfl, inside⟩ := (matches_plain rfl).1 operator
  have seen : Sight.equals.left (assignOps.map .assignOp) = [.assignOp .plain] := rfl
  have plain := Sight.only fits seen inside
  obtain ⟨read, advances, rfl⟩ := (matches_token rfl decides_plain).1 plain
  refine ⟨_, more, rfl, rfl, ?_⟩
  have left : e.rest = rest := by
    rw [there] at read
    simp only [Step.text, List.cons_prefix_cons, List.nil_prefix, and_true, if_true,
      List.length_singleton, List.drop_one, List.tail_cons, Option.bind_eq_bind, Option.bind_some]
        at read
    exact (Option.some.inj (Option.ite_none_left_eq_some.1 read).2).symm
  have here : e = ⟨rest, c.pos + bytes ['=']⟩ :=
    advances.unique ⟨['='], there, rfl⟩ left
  exact here ▸ value

end Scriptlet
