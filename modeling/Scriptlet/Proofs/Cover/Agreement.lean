import Scriptlet.Proofs.Cover.Statement

/-!
Declarations and assignments with the same pattern.

A pattern that declares names is read by rules of its own; one that is assigned to is read as a
literal first. Main statement: `patterns_agree`, both readings of a text give the same pattern,
apart from the places.
-/

namespace Scriptlet

open Grammar Scriptlet.Tree Lexer

variable {c d : Cursor} {ns ms : List (Grammar.Node Rule)} {cs rest : List Char} {p q : Nat}

/-! ### The pattern and the value in longer texts -/

theorem skip_to_equals (rest : List Char) (k : Nat) :
    Cursor.skip ⟨" = ".toList ++ rest, k⟩ = ⟨'=' :: ' ' :: rest, k + 1⟩ := by
  rw [show " = ".toList ++ rest = ' ' :: '=' :: ' ' :: rest from rfl, skip_blank rfl]
  exact Cursor.skip_of_clean rfl

section Parts

variable {cs' : List Char} (target : Matches (.rule .bindingTarget) ⟨cs, 0⟩ ns ⟨[], p⟩)
  (value : Matches (.rule .assignment) ⟨cs', 0⟩ ms ⟨[], q⟩)

include target

/-- A pattern in front of an equals sign. -/
theorem target_before_equals (rest : List Char) (k : Nat) :
    Matches (.rule .bindingTarget) ⟨cs ++ (" = ".toList ++ rest), k⟩ (shiftNodes k ns)
      ⟨" = ".toList ++ rest, p + k⟩ := by
  have longer := target_append (" = ".toList ++ rest) target rfl
  simpa only [Cursor.shift, Nat.zero_add] using matches_shift (r := .bindingTarget) rfl k longer

include value

/-- A pattern and a value make a declarator. -/
theorem declarator_of_parts (k : Nat) : ∃ s v d,
    Matches (.rule .declarator) ⟨cs ++ (" = ".toList ++ cs'), k⟩
      [⟨.declarator, s, "", shiftNodes k ns ++ [v]⟩] d ∧
      d.rest = [] := by
  have moved := matches_shift (r := .assignment) rfl (p + k + 3) value
  simp only [Cursor.shift, Nat.zero_add] at moved
  obtain ⟨vs, after⟩ := value_skip moved rfl
  obtain ⟨v, rfl⟩ : ∃ v, vs = [v] := by
    obtain ⟨children, rfl, -⟩ := (matches_plain rfl).1 after
    exact ⟨_, rfl⟩
  have sign : Matches (lit "=") ⟨'=' :: ' ' :: cs', p + k + 1⟩ [] ⟨' ' :: cs', p + k + 2⟩ :=
    matches_text.2 ⟨rfl, rfl, rfl⟩
  have given : Matches initializer ⟨'=' :: ' ' :: cs', p + k + 1⟩ [v] ⟨[], q + (p + k + 3)⟩ := by
    refine matches_opt.2 (.inl (matches_seq.2 ⟨[], _, _, rfl, sign, ?_⟩))
    rw [skip_blank rfl]
    exact after
  rw [← skip_to_equals] at given
  have inside := matches_seq.2 ⟨_, _, _, rfl, target_before_equals target cs' k, given⟩
  exact ⟨_, _, _, (matches_plain (r := .declarator) rfl).2 ⟨_, rfl, inside⟩, rfl⟩

theorem path_of_parts : Path ([], cs ++ (" = ".toList ++ cs')) ([], []) := by
  obtain ⟨s, v, d, declarator, ended⟩ := declarator_of_parts target value 0
  have clean := skip_of_target (target_before_equals target cs' 0)
  have balanced : Balanced (.rule .declarator) := ⟨rfl, rfl⟩
  have path := path_inside balanced (clean.symm ▸ declarator)
  rwa [skip_at_end_of_text ended, ended] at path

/-- The value after a pattern and an equals sign, in front of a bracket. -/
theorem value_of_parts (whole : Path ([], cs ++ (" = ".toList ++ (cs' ++ [')']))) ([], [')']))
    (k : Nat) :
    ∃ v, Matches (.rule .assignment) (Cursor.skip ⟨cs' ++ [')'], k⟩) [v] ⟨[')'], q + k⟩ := by
  have target' := target_before_equals target (cs' ++ [')']) 0
  have reached := path_inside balanced_target ((skip_of_target target').symm ▸ target')
  rw [skip_to_equals] at reached
  have past : Path ([], '=' :: ' ' :: (cs' ++ [')'])) ([], cs' ++ [')']) :=
    .head (show Lexer.step _ = some ([], ' ' :: (cs' ++ [')'])) from rfl) (.single rfl)
  have path : Path ([], cs' ++ [')']) ([], [')']) := Path.join (reached.trans past) whole (by simp)
  have moved := matches_shift (r := .assignment) rfl k value
  simp only [Cursor.shift, Nat.zero_add] at moved
  obtain ⟨vs, matched⟩ := value_before_bracket moved path
  obtain ⟨children, rfl, -⟩ := (matches_plain rfl).1 matched
  exact ⟨_, matched⟩

/-- Between parentheses, a pattern and a value make a plain assignment to an operand that agrees
with the pattern. -/
theorem assigned_between {inner : List (Grammar.Node Rule)} {f : Cursor}
    (between : Matches (.rule .expression)
      (Cursor.skip ⟨(cs ++ (" = ".toList ++ cs')) ++ [')'], 1⟩) inner f)
    (closed : f.skip.rest = [')']) : ∃ n w op v s s', shiftNodes 1 ns = [n] ∧
      inner = [⟨.expression, s, "", [⟨.assignment, s', "", [w, op, v]⟩]⟩] ∧ Agree n w ∧
      (build op).piece = .ok (.assignOp .plain) := by
  have whole := path_inside balanced_expression between
  rw [closed] at whole
  rw [List.append_assoc, List.append_assoc] at between whole
  have target' := target_before_equals target (cs' ++ [')']) 1
  have clean := skip_of_target target'
  rw [clean] at between
  have start := skip_to_equals (cs' ++ [')']) (p + 1)
  have fits : Sight.equals.Fits ⟨'=' :: ' ' :: (cs' ++ [')']), p + 2⟩ :=
    Sight.equals_fits rfl fun x head => by cases head; decide
  obtain ⟨_, rfl, inside⟩ := (matches_plain rfl).1 between
  obtain ⟨_, _, e, rfl, first, others⟩ := matches_seq.1 inside
  obtain ⟨n, w, more, single, rfl, agree, assigned⟩ :=
    assignment_over_target (target_agrees _) target'
    (start.symm ▸ .of_sight fits rfl) (start.symm ▸ Absent.of_sight fits rfl) first
  rw [start] at assigned
  rcases matches_opt.1 assigned with assigned | ⟨-, -, rfl⟩
  · obtain ⟨op, values, rfl, plain, given⟩ := plain_of_equals rfl fits assigned
    rw [skip_blank rfl] at given
    obtain ⟨v, alone⟩ := value_of_parts target value whole (p + 4)
    obtain ⟨rfl, rfl⟩ := alone.unique given
    have stay : Cursor.skip ⟨[')'], q + (p + 4)⟩ = ⟨[')'], q + (p + 4)⟩ := Cursor.skip_of_clean rfl
    rw [stay] at others
    have bracket : (Sight.ahead [')']).Fits ⟨[')'], q + (p + 4)⟩ := Sight.ahead_cons rfl rfl
    obtain ⟨rfl, rfl⟩ := (Absent.of_sight bracket rfl).of_star others
    exact ⟨n, w, op, _, _, _, single, rfl, agree, plain⟩
  · -- the equals sign would have to be the bracket
    have stay :
        Cursor.skip ⟨'=' :: ' ' :: (cs' ++ [')']), p + 2⟩ = ⟨'=' :: ' ' :: (cs' ++ [')']), p + 2⟩ :=
      Cursor.skip_of_clean rfl
    rw [stay] at others
    obtain ⟨-, rfl⟩ := (Absent.of_sight fits rfl).of_star others
    rw [stay] at closed
    cases closed

end Parts

/-! ### Both readings -/

/-- What a node stands for at another place is the same pattern there. -/
theorem pattern_at {n : Grammar.Node Rule} {source : String} (lies : n.Lies script source) {k : Nat}
    {p : Pattern}
    (made : (build (n.shift k)).pattern = .ok p) :
    ∃ p', (build n).pattern = .ok p' ∧ p = p'.shift k := by
  rw [build_shift k lies, pattern_shift] at made
  cases here : (build n).pattern with
  | error =>
    rw [here] at made
    cases made
  | ok p' =>
    rw [here] at made
    cases made
    exact ⟨p', rfl, rfl⟩

/-- Whether the rule matches all of the text. -/
def Grammar.matchesAll (r : Rule) (source : String) : Bool :=
  match script.parse r source with
  | .matched _ c _ => c.rest.isEmpty
  | _ => false

theorem Grammar.derives_of_matchesAll {r : Rule} {source : String}
    (whole : matchesAll r source = true) :
    ∃ nodes q, Matches (.rule r) ⟨source.toList, 0⟩ nodes ⟨[], q⟩ ∧
    ∀ n ∈ nodes, n.Lies script source := by
  unfold matchesAll at whole
  split at whole
  next nodes c trail matched =>
    obtain ⟨rest, q⟩ := c
    obtain rfl := List.isEmpty_iff.1 whole
    have sound := Grammar.RuleSet.parse_sound script r source
    rw [matched] at sound
    exact ⟨nodes, q, RuleSet.run_derives (congrArg Outcome.result? matched), sound.1.lie⟩
  next => cases whole

/-- What is declared, in a program of one declaration. -/
theorem declaration_read {pattern value : String} {options : ParseOptions} {program : Program}
    (target : Matches (.rule .bindingTarget) ⟨pattern.toList, 0⟩ ns ⟨[], p⟩)
    (given : Matches (.rule .assignment) ⟨value.toList, 0⟩ ms ⟨[], q⟩)
    (accepted : parseProgram ("let " ++ pattern ++ " = " ++ value) options = .ok program) :
    ∃ n s s' s'' x e, shiftNodes 4 ns = [n] ∧ (build n).pattern = .ok x ∧
      program.body = [.declaration s ⟨.let_, [⟨x, some e, s'⟩], s''⟩] := by
  have text : ("let " ++ pattern ++ " = " ++ value).toList =
      "let ".toList ++ (pattern.toList ++ (" = ".toList ++ value.toList)) := by
    simp only [String.toList_append, List.append_assoc]
  have target' := target_before_equals target value.toList 4
  obtain ⟨n, one⟩ := target_single target'
  obtain ⟨s', v, d, declarator, ended⟩ := declarator_of_parts target given 4
  have clean : layoutUnit (pattern.toList ++ (" = ".toList ++ value.toList)) = none :=
    Cursor.clean_of_skip (skip_of_target target')
  obtain ⟨m, c, stmt, matched, made, body⟩ :=
    program_single accepted (by rw [text]; rfl) (by rw [text]; simp) (by
    rw [text]
    intro nodes e statement
    obtain ⟨ended, k, s, s', rfl, -⟩ := let_statement declarator clean ended statement
    exact ⟨ended, _, rfl, nofun⟩)
  rw [text] at matched
  obtain ⟨-, k, s, s'', single, named⟩ := let_statement declarator clean ended matched
  cases single
  rw [one] at made
  obtain ⟨x, e, here, -, rfl⟩ := declared_stmt named made
  exact ⟨n, _, _, _, x, e, one, here, body⟩

/-- What is assigned to, in a program of one assignment. -/
theorem assignment_read {pattern value : String} {options : ParseOptions} {program : Program}
    (target : Matches (.rule .bindingTarget) ⟨pattern.toList, 0⟩ ns ⟨[], p⟩)
    (given : Matches (.rule .assignment) ⟨value.toList, 0⟩ ms ⟨[], q⟩)
    (accepted : parseProgram ("(" ++ pattern ++ " = " ++ value ++ ")") options = .ok program) :
    ∃ n s s' y e, shiftNodes 1 ns = [n] ∧ (∀ x, (build n).pattern = .ok x → x.bare = y.bare) ∧
      program.body = [.expression s (.assign s' .plain y e)] := by
  have text : ("(" ++ pattern ++ " = " ++ value ++ ")").toList =
      '(' :: ((pattern.toList ++ (" = ".toList ++ value.toList)) ++ [')']) := by
    simp only [String.toList_append, List.append_assoc]
    rfl
  have path := path_of_parts target given
  obtain ⟨m, c, stmt, matched, made, body⟩ :=
    program_single accepted (by rw [text]; rfl) (by rw [text]; simp) (by
    rw [text]
    intro nodes e statement
    obtain ⟨ended, s, k, inner, f, rfl, -⟩ := parenthesized_statement path statement
    exact ⟨ended, _, rfl, nofun⟩)
  rw [text] at matched
  obtain ⟨-, s, k, inner, f, single, between, closed, same⟩ := parenthesized_statement path matched
  cases single
  obtain ⟨n, w, op, v, s', s'', one, rfl, agree, plain⟩ :=
    assigned_between target given between closed
  obtain ⟨e, expression, rfl⟩ := expression_stmt made
  rw [same _ rfl, expr_of_relays relays_expression] at expression
  obtain ⟨left, y, e', operand, read, -, rfl⟩ := expr_assignment plain expression
  exact ⟨n, _, _, y, e', one, fun x here => agree x left here operand y read, body⟩

/-- A text that declares a pattern and a text that assigns to it have the same pattern, apart from
its places. -/
theorem patterns_agree {pattern value : String} (whole : matchesAll .bindingTarget pattern = true)
    (whole' : matchesAll .assignment value = true) {options options' : ParseOptions}
    {declaring assigning : Program}
    (declared : parseProgram ("let " ++ pattern ++ " = " ++ value) options = .ok declaring)
    (assigned : parseProgram ("(" ++ pattern ++ " = " ++ value ++ ")") options' = .ok assigning) :
    ∃ s s' s'' x e, declaring.body = [.declaration s ⟨.let_, [⟨x, some e, s'⟩], s''⟩] ∧
      ∃ t t' y e', assigning.body = [.expression t (.assign t' .plain y e')] ∧ x.bare = y.bare := by
  obtain ⟨ns, p, target, lie⟩ := derives_of_matchesAll whole
  obtain ⟨ms, q, given, -⟩ := derives_of_matchesAll whole'
  obtain ⟨n, rfl⟩ := target_single target
  obtain ⟨_, s, s', s'', x, e, one, here, body⟩ := declaration_read target given declared
  obtain ⟨_, t, t', y, e', one', agree, body'⟩ := assignment_read target given assigned
  cases one
  cases one'
  have lies : n.Lies script pattern := lie n (List.mem_singleton_self n)
  obtain ⟨z, made, rfl⟩ := pattern_at lies here
  have made' : (build (n.shift 1)).pattern = .ok (z.shift 1) := by
    rw [build_shift 1 lies, pattern_shift, made]
    rfl
  have same := agree (z.shift 1) made'
  rw [Pattern.bare_shift] at same
  exact ⟨s, s', s'', _, e, body, t, t', y, e', body', (Pattern.bare_shift 4 z).trans same⟩

/-- A pattern of every form, declared and assigned to. -/
theorem patterns_agree_nested :
    ∃ declaring assigning s s' s'' x e t t' y e',
      parseProgram ("let " ++ "[a, , \x7bb: c = 1\x7d, ...d]" ++ " = " ++ "v") {} = .ok declaring ∧
      parseProgram ("(" ++ "[a, , \x7bb: c = 1\x7d, ...d]" ++ " = " ++ "v" ++ ")") {} =
        .ok assigning ∧
      declaring.body = [.declaration s ⟨.let_, [⟨x, some e, s'⟩], s''⟩] ∧
      assigning.body = [.expression t (.assign t' .plain y e')] ∧ x.bare = y.bare := by
  have accepts :
      (parseProgram ("let " ++ "[a, , \x7bb: c = 1\x7d, ...d]" ++ " = " ++ "v") {}).toOption.any
      (fun _ => true) = true := by decide +kernel
  have accepts' :
      (parseProgram ("(" ++ "[a, , \x7bb: c = 1\x7d, ...d]" ++ " = " ++ "v" ++ ")") {}).toOption.any
      (fun _ => true) = true := by decide +kernel
  obtain ⟨declaring, declared, -⟩ := exists_accepted accepts
  obtain ⟨assigning, assigned, -⟩ := exists_accepted accepts'
  obtain ⟨s, s', s'', x, e, body, t, t', y, e', body', same⟩ :=
    patterns_agree (by decide +kernel) (by decide +kernel) declared assigned
  exact ⟨declaring, assigning, s, s', s'', x, e, t, t', y, e', declared, assigned, body,
    body', same⟩

end Scriptlet
