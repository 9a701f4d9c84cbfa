import Scriptlet.Proofs.Cover.Target

/-!
Patterns and values in longer texts.

A pattern is matched in front of anything that ends it as it is alone, and a value after layout as
together with it. Main statements: `target_append` and `value_skip`.
-/

namespace Scriptlet

open Grammar Scriptlet.Tree Lexer

variable {c d : Cursor} {ns ms : List (Grammar.Node Rule)} {cs rest : List Char} {p q : Nat}

/-! ### Patterns -/

/-- A pattern is not changed by what comes after it, unless that goes on with a name. -/
theorem target_append (rest : List Char) (whole : Matches (.rule .bindingTarget) ⟨cs, p⟩ ns ⟨[], q⟩)
    (apart : spelled rest = []) :
    Matches (.rule .bindingTarget) ⟨cs ++ rest, p⟩ ns ⟨rest, q⟩ := by
  refine (matches_silent rfl).2 ?_
  have balanced : Balanced (optionalList (.rule .objectBindingMember)) := ⟨rfl, rfl⟩
  rcases target_cases whole with ⟨after, there, array⟩ | ⟨after, there, object⟩ | name
  · obtain ⟨children, rfl, inside⟩ := (matches_plain rfl).1 array
    have longer := bracketed_append rest (by decide) balanced_slots inside
    exact matches_alt.2 (.inl ((matches_plain rfl).2 ⟨children, rfl, longer⟩))
  · obtain ⟨children, rfl, inside⟩ := (matches_plain rfl).1 object
    have longer := bracketed_append rest (by decide) balanced inside
    have head : (⟨cs ++ rest, p⟩ : Cursor).rest = '\x7b' :: (after ++ rest) := by
      rw [show cs = '\x7b' :: after from there]
      rfl
    have none : Absent (.rule .arrayBinding) ⟨cs ++ rest, p⟩ :=
      Absent.of_sight (Sight.ahead_cons head rfl) rfl
    refine matches_alt.2 (.inr ⟨Absent.refused none, matches_alt.2 (.inl ?_)⟩)
    exact (matches_plain rfl).2 ⟨children, rfl, longer⟩
  · obtain ⟨read, advances, rfl⟩ := matches_identifier.1 name
    have read' : Step.name (cs ++ rest) = some rest := name_append read apart
    have fits : Sight.named.Fits ⟨cs ++ rest, p⟩ := Sight.named_fits read'
    have none : Absent (.rule .arrayBinding) ⟨cs ++ rest, p⟩ := Absent.of_sight fits rfl
    have none' : Absent (.rule .objectBinding) ⟨cs ++ rest, p⟩ := Absent.of_sight fits rfl
    refine matches_alt.2
      (.inr ⟨Absent.refused none, matches_alt.2 (.inr ⟨Absent.refused none', ?_⟩)⟩)
    obtain ⟨between, ahead, pos⟩ := advances
    simp only [List.append_nil] at ahead pos
    subst ahead pos
    refine matches_identifier.2 ⟨read', ⟨cs, rfl, rfl⟩, ?_⟩
    have text := takeBytes_append cs []
    rw [List.append_nil] at text
    simp only [Nat.add_sub_cancel_left, takeBytes_append, text]

/-- A match at another place of a text. -/
theorem matches_shift {r : Rule} (placeless : isPlaceless r = true) (k : Nat)
    (matched : Matches (.rule r) c ns d) :
    Matches (.rule r) (c.shift k) (shiftNodes k ns) (d.shift k) :=
  Derives.shift rfl placeless_body k matched placeless

/-! ### Values -/

/-- A blank in front of layout is skipped with it. -/
theorem skip_blank {x : Char} (blank : CharClass.blank.holds x = true) (rest : List Char)
    (p : Nat) :
    Cursor.skip ⟨x :: rest, p⟩ = Cursor.skip ⟨rest, p + x.utf8Size⟩ := by
  have apart : ¬StartsComment (x :: rest) := by
    rintro (⟨_, same⟩ | ⟨_, same⟩) <;> cases same <;> cases blank
  have read : layoutUnit (x :: rest) = some rest := by rw [layoutUnit_of_word apart, if_pos blank]
  have one : Cursor.Advances ⟨x :: rest, p⟩ (Cursor.skip ⟨x :: rest, p⟩) :=
    (@derives_skip .top rfl _).advances
  have other : Cursor.Advances ⟨x :: rest, p⟩ (Cursor.skip ⟨rest, p + x.utf8Size⟩) :=
    (Cursor.Advances.char rfl).trans (@derives_skip .top rfl _).advances
  exact one.unique other (Step.exhaust_of_some read (List.suffix_cons x rest))

/-- What an operand starts with is no operator. -/
theorem operand_absent {e : Cursor} (operator : Matches (.rule .unaryOperator) c ns e) :
    Absent (.rule .leftHandSide) c := by
  obtain ⟨_, -, either⟩ := (matches_plain rfl).1 operator
  obtain ⟨r, member, one⟩ := exists_of_anyOf either
  have symbol {s : String} {nodes : List (Grammar.Node Rule)} (sign : Matches (lit s) c nodes e)
      (clean : layoutUnit (s.toList ++ e.rest) = none)
      (seen : s.toList ≠ [] ∧ (Sight.ahead s.toList).peek (.rule .leftHandSide) = .refused) :
      Absent (.rule .leftHandSide) c := by
    obtain ⟨-, there, -⟩ := matches_text.1 sign
    have fits : (Sight.ahead s.toList).Fits c := Sight.ahead_fits there seen.1 (there ▸ clean)
    exact Absent.of_sight fits seen.2
  have word {k : Keyword} {nodes : List (Grammar.Node Rule)}
    (one : Matches (.rule (.keyword k)) c nodes e)
      (reserved : k ∈ Keyword.reserved)
      (seen : (Sight.keyword k).peek (.rule .leftHandSide) = .refused) : Absent
        (.rule .leftHandSide) c :=
    Absent.of_sight (Sight.keyword_fits (spelled_of_keyword one) reserved) seen
  simp only [List.mem_cons, List.not_mem_nil, or_false] at member
  rcases member with rfl | rfl | rfl | rfl | rfl | rfl | rfl | rfl | rfl
  case inr.inr.inr.inr.inr.inr.inl => exact word one (by decide) rfl
  case inr.inr.inr.inr.inr.inr.inr.inl => exact word one (by decide) rfl
  case inr.inr.inr.inr.inr.inr.inr.inr => exact word one (by decide) rfl
  all_goals
    obtain ⟨_, -, sign⟩ := (matches_plain rfl).1 one
    exact symbol sign rfl ⟨by decide, rfl⟩

/-- A conditional expression without an operator in front is matched after layout as together with
it. -/
theorem conditional_skip (matched : Matches (.rule .conditional) c ns d)
    (leading : Absent (.rule .unaryOperator) c) :
    ∃ ms, Matches (.rule .conditional) c.skip ms d := by
  obtain ⟨_, rfl, inside₁⟩ := (matches_plain rfl).1 matched
  obtain ⟨_, _, binaryEnd, rfl, binary, choice⟩ := matches_seq.1 inside₁
  obtain ⟨_, rfl, inside₂⟩ := (matches_plain rfl).1 binary
  obtain ⟨_, _, unaryEnd, rfl, unary, operations⟩ := matches_seq.1 inside₂
  obtain ⟨_, rfl, inside₃⟩ := (matches_plain rfl).1 unary
  obtain ⟨_, _, start, rfl, operators, update⟩ := matches_seq.1 inside₃
  obtain ⟨rfl, rfl⟩ := leading.of_star operators
  obtain ⟨_, rfl, inside₄⟩ := (matches_plain rfl).1 update
  obtain ⟨_, _, _, -, left, -⟩ := matches_seq.1 inside₄
  have none : Absent (.rule .unaryOperator) start.skip :=
    fun _ _ operator => (operand_absent operator).elim left
  have bare : Matches (.star (.rule .unaryOperator)) start.skip [] start.skip :=
    matches_star.2 (.inl ⟨Absent.refused none, rfl, rfl⟩)
  have update' := update
  rw [← skip_skip start] at update'
  have unary' :=
    (matches_plain (r := .unary) rfl).2 ⟨_, rfl, matches_seq.2 ⟨_, _, _, rfl, bare, update'⟩⟩
  have binary' :=
    (matches_plain (r := .binary) rfl).2 ⟨_, rfl, matches_seq.2 ⟨_, _, _, rfl, unary', operations⟩⟩
  exact ⟨_, (matches_plain (r := .conditional) rfl).2
    ⟨_, rfl, matches_seq.2 ⟨_, _, _, rfl, binary', choice⟩⟩⟩

/-! ### Arrow functions -/

/-- An arrow stops an expression. -/
theorem quiet_at_arrow {rest : List Char} (there : c.rest = '=' :: '>' :: rest) :
    Quiet c ∧ Absent (.seq (.rule .assignOperator) (.rule .assignment)) c := by
  have fits : (Sight.ahead ['=', '>']).Fits c :=
    Sight.ahead_fits there (List.cons_ne_nil _ _) (by rw [there]; rfl)
  refine ⟨.of_sight fits rfl, Absent.seq fun _ _ operator => ?_⟩
  obtain ⟨_, -, either⟩ := (matches_plain rfl).1 operator
  have seen : (Sight.ahead ['=', '>']).left (assignOps.map .assignOp) = [.assignOp .plain] := rfl
  obtain ⟨read, -⟩ := (matches_token rfl decides_plain).1 (Sight.only fits seen either)
  rw [there] at read
  simp [Step.text] at read

theorem balanced_expression : Balanced (.rule .expression) :=
  ⟨rfl, rfl⟩

theorem balanced_target : Balanced (.rule .bindingTarget) :=
  ⟨rfl, rfl⟩

theorem balanced_parameters : Balanced (optionalList (anyOf [.restElement, .bindingElement])) :=
  ⟨rfl, rfl⟩

/-- The parameters of an arrow function end where an operand that is matched in their place does. -/
theorem operand_of_parameters {t : Cursor} (parameters : Matches (.rule .arrowParameters) c ns t) :
    Absent (.rule .newExpression) c ∧ ∀ {ms d}, Matches (.rule .primary) c ms d → d = t := by
  obtain ⟨_, rfl, either⟩ := (matches_plain rfl).1 parameters
  rcases matches_alt.1 either with name | ⟨-, list⟩
  · have fits := Sight.named_fits (matches_identifier.1 name).1
    refine ⟨Absent.of_sight fits rfl, fun operand => ?_⟩
    have seen : Sight.named.left operandRules = [.identifier] := rfl
    have same := Sight.only fits seen ((matches_silent rfl).1 operand)
    exact (same.unique name).2
  · obtain ⟨_, -, inside⟩ := (matches_plain rfl).1 list
    obtain ⟨rest, -, there, -⟩ := matches_bracketed.1 inside
    have fits : (Sight.ahead ['(']).Fits c := Sight.ahead_cons there rfl
    refine ⟨Absent.of_sight fits rfl, fun operand => ?_⟩
    have seen : (Sight.ahead ['(']).left operandRules = [.parenthesized] := rfl
    obtain ⟨_, -, inside'⟩ :=
      (matches_plain rfl).1 (Sight.only fits seen ((matches_silent rfl).1 operand))
    exact bracketed_unique (by decide) balanced_expression balanced_parameters inside' inside

theorem arrow_after {d : Cursor} (function : Matches (.rule .arrowFunction) c ns d) :
    ∃ ps t rest, Matches (.rule .arrowParameters) c ps t ∧ t.skip.rest = '=' :: '>' :: rest := by
  obtain ⟨_, -, inside⟩ := (matches_plain rfl).1 function
  obtain ⟨ps, _, t, -, parameters, body⟩ := matches_seq.1 inside
  obtain ⟨u, there, -⟩ := matches_after body
  exact ⟨ps, t, u.rest, parameters, there⟩

/-- A value is matched after layout as together with it, if that is all of the text. -/
theorem value_skip (whole : Matches (.rule .assignment) c ns d) (ended : d.rest = []) :
    ∃ ms, Matches (.rule .assignment) c.skip ms d := by
  cases read : layoutUnit c.rest with
  | none => exact ⟨ns, (Cursor.skip_of_clean read).symm ▸ whole⟩
  | some rest =>
    have fits := Sight.layout_fits read
    obtain ⟨_, rfl, inside⟩ := (matches_plain rfl).1 whole
    rcases matches_alt.1 inside with function | ⟨-, operation⟩
    · exact (Absent.of_sight fits rfl).elim function
    · obtain ⟨_, more, e, rfl, conditional, assigned⟩ := matches_seq.1 operation
      have leading : Absent (.rule .unaryOperator) c := Absent.of_sight fits rfl
      have arrow : Absent (.rule .arrowFunction) c.skip := by
        -- the arrow would be left over
        intro _ _ function
        obtain ⟨ps, t, rest, parameters, there⟩ := arrow_after function
        obtain ⟨construct, same⟩ := operand_of_parameters parameters
        obtain ⟨inner, t', operand, alone⟩ := conditional_operand conditional leading construct
        obtain rfl := same operand
        obtain ⟨quiet, none⟩ := quiet_at_arrow there
        obtain ⟨rfl, -⟩ := alone quiet
        rw [skip_skip] at assigned
        obtain ⟨-, rfl⟩ := none.of_opt assigned
        rw [there] at ended
        cases ended
      obtain ⟨ms, conditional'⟩ := conditional_skip conditional leading
      refine ⟨_,
        (matches_plain (r := .assignment) rfl).2 ⟨ms ++ more, rfl, matches_alt.2 (.inr ⟨?_, ?_⟩)⟩⟩
      · exact arrow.refused
      · exact matches_seq.2 ⟨ms, more, e, rfl, conditional', assigned⟩

/-- A value is matched before a closing bracket, after layout, as it is at the end of a text. -/
theorem value_before_bracket (value : Matches (.rule .assignment) ⟨cs, p⟩ ns ⟨[], q⟩)
    (path : Path ([], cs ++ [')']) ([], [')'])) :
    ∃ vs, Matches (.rule .assignment) (Cursor.skip ⟨cs ++ [')'], p⟩) vs ⟨[')'], q⟩ := by
  have closed : Closed [] := by
    rintro _ _ ⟨⟩
  obtain ⟨vs, after⟩ := value_skip value rfl
  obtain ⟨ρ, there, before, path⟩ :=
    @skip_moved ⟨cs, p⟩ _ _ _ _ rfl closed (List.append_nil cs).symm path
  have clean : layoutUnit (ρ ++ [')']) = none := Cursor.clean_of_skip before
  obtain ⟨ρ', ended, moved, -⟩ := after.moved rfl closed there path balanced_assignment clean
  rw [List.append_nil] at ended
  subst ended
  exact ⟨vs, before ▸ moved⟩

end Scriptlet
