import Scriptlet.Proofs.Cover.Literal
import Scriptlet.Proofs.Cover.Operand

/-!
Elements of patterns and of literals.

An element of a pattern and an element of a literal that are matched at the same place end at the
same place, if both are followed by what may follow an element, and they agree. Main statements:
`slot_agrees` and `member_agrees`, for patterns inside of which that is known.
-/

namespace Scriptlet

open Grammar Scriptlet.Tree

variable {c d d' t : Cursor} {ns ms : List (Grammar.Node Rule)}

/-! ### Where patterns start -/

namespace Grammar

/-- What is seen where a pattern starts. -/
def heads : List Sight :=
  [.ahead ['['], .ahead ['\x7b'], .named]

/-- A pattern in brackets starts with the bracket, and another one is a name. -/
theorem target_cases (matched : Matches (.rule .bindingTarget) c ns d) :
    (∃ rest, c.rest = '[' :: rest ∧ Matches (.rule .arrayBinding) c ns d) ∨
      (∃ rest, c.rest = '\x7b' :: rest ∧ Matches (.rule .objectBinding) c ns d) ∨
        Matches (.rule .identifier) c ns d := by
  obtain ⟨r, member, one⟩ := exists_of_anyOf ((matches_silent rfl).1 matched)
  simp only [List.mem_cons, List.not_mem_nil, or_false] at member
  rcases member with rfl | rfl | rfl
  · obtain ⟨children, rfl, inside⟩ := (matches_plain rfl).1 one
    obtain ⟨rest, f, there, -⟩ := matches_bracketed.1 inside
    exact .inl ⟨rest, there, one⟩
  · obtain ⟨children, rfl, inside⟩ := (matches_plain rfl).1 one
    obtain ⟨rest, f, there, -⟩ := matches_bracketed.1 inside
    exact .inr (.inl ⟨rest, there, one⟩)
  · exact .inr (.inr one)

/-- A pattern is one node. -/
theorem target_single (matched : Matches (.rule .bindingTarget) c ns d) : ∃ n, ns = [n] := by
  rcases target_cases matched with ⟨-, -, array⟩ | ⟨-, -, object⟩ | name
  · obtain ⟨_, rfl, -⟩ := (matches_plain rfl).1 array
    exact ⟨_, rfl⟩
  · obtain ⟨_, rfl, -⟩ := (matches_plain rfl).1 object
    exact ⟨_, rfl⟩
  · obtain ⟨-, -, rfl⟩ := matches_identifier.1 name
    exact ⟨_, rfl⟩

theorem exists_head (matched : Matches (.rule .bindingTarget) c ns d) : ∃ s ∈ heads, s.Fits c := by
  rcases target_cases matched with ⟨rest, there, -⟩ | ⟨rest, there, -⟩ | name
  · exact ⟨.ahead ['['], by simp [heads], Sight.ahead_cons there rfl⟩
  · exact ⟨.ahead ['\x7b'], by simp [heads], Sight.ahead_cons there rfl⟩
  · exact ⟨.named, by simp [heads], Sight.named_fits (matches_identifier.1 name).1⟩

theorem absent_of_target {e : Peg Rule} (matched : Matches (.rule .bindingTarget) c ns d)
    (seen : ∀ s ∈ heads, s.peek e = .refused) : Absent e c := by
  obtain ⟨s, member, fits⟩ := exists_head matched
  exact Absent.of_sight fits (seen s member)

theorem skip_of_target (matched : Matches (.rule .bindingTarget) c ns d) : c.skip = c := by
  obtain ⟨s, member, fits⟩ := exists_head matched
  have clean : ∀ s ∈ heads, s.clean = true := by decide
  exact Cursor.skip_of_clean (fits.clean (clean s member))

theorem skip_skip (c : Cursor) : c.skip.skip = c.skip :=
  Cursor.skip_of_clean (Lexer.layoutUnit_clean c.rest)

/-- An arrow function whose parameters end where a pattern does has its arrow there. -/
theorem arrow_absent (matched : Matches (.rule .bindingTarget) c ns t)
    (arrow : Absent (lit "=>") t.skip) :
    Absent (.rule .arrowFunction) c := by
  rcases target_cases matched with ⟨rest, there, -⟩ | ⟨rest, there, -⟩ | name
  · exact Absent.of_sight (Sight.ahead_cons there rfl) rfl
  · exact Absent.of_sight (Sight.ahead_cons there rfl) rfl
  · intro nodes d function
    obtain ⟨_, rfl, inside⟩ := (matches_plain rfl).1 function
    obtain ⟨_, _, e, rfl, parameters, body⟩ := matches_seq.1 inside
    obtain ⟨_, _, _, rfl, sign, -⟩ := matches_seq.1 body
    obtain ⟨_, rfl, either⟩ := (matches_plain rfl).1 parameters
    have seen : Sight.named.left [.identifier, .parameters] = [.identifier] := rfl
    have same := Sight.only (Sight.named_fits (matches_identifier.1 name).1) seen either
    obtain ⟨-, rfl⟩ := same.unique name
    exact arrow.elim sign

end Grammar

/-! ### Patterns and operands -/

/-- A pattern and an operand that are matched at a place end together and agree. -/
def TargetAgrees (c : Cursor) : Prop :=
  ∀ {ns d ms d'}, Matches (.rule .bindingTarget) c ns d → Matches (.rule .primary) c ms d' →
    d = d' ∧ ∃ n m, ns = [n] ∧ ms = [m] ∧ Agree n m

/-- Where a pattern is matched, an assignment starts with an operand that agrees with it. -/
theorem assignment_over_target (agrees : TargetAgrees c)
    (target : Matches (.rule .bindingTarget) c ns t)
    (quiet : Quiet t.skip) (arrow : Absent (lit "=>") t.skip)
    (matched : Matches (.rule .assignment) c ms d) :
    ∃ n w more, ns = [n] ∧ ms = [⟨.assignment, ⟨c.pos, d.pos⟩, "", w :: more⟩] ∧ Agree n w ∧
      Matches (.opt (.seq (.rule .assignOperator) (.rule .assignment))) t.skip more d := by
  have clean := skip_of_target target
  obtain ⟨inner, t', primary, alone⟩ := assignment_operand matched (arrow_absent target arrow)
    (absent_of_target target (by decide)) (clean.symm ▸ absent_of_target target (by decide))
  rw [clean] at primary
  obtain ⟨rfl, n, m, rfl, rfl, agree⟩ := agrees target primary
  obtain ⟨w, more, rfl, same, assigned⟩ := alone quiet
  exact ⟨n, w, more, rfl, rfl, fun p e made made' => agree p e made (same m rfl ▸ made'), assigned⟩

/-- Where nothing is assigned to the operand, it is all of the assignment. -/
theorem lonely_agrees (agrees : TargetAgrees c) (target : Matches (.rule .bindingTarget) c ns t)
    (follows : Follows t.skip) (matched : Matches (.rule .assignment) c ms d) :
    d = t.skip ∧ ∃ n w span, ns = [n] ∧ ms = [⟨.assignment, span, "", [w]⟩] ∧ Agree n w := by
  obtain ⟨n, w, more, rfl, rfl, agree, assigned⟩ :=
    assignment_over_target agrees target follows.quiet
    (follows.absent rfl) matched
  have none : Absent (.seq (.rule .assignOperator) (.rule .assignment)) t.skip :=
    follows.absent rfl
  obtain ⟨rfl, rfl⟩ := none.of_opt assigned
  exact ⟨rfl, n, w, _, rfl, rfl, agree⟩

/-- An element of a pattern, possibly with a default, and an assignment. -/
theorem element_agrees (agrees : TargetAgrees c) (left : Matches (.rule .bindingElement) c ns d)
    (right : Matches (.rule .assignment) c ms d') (follows : Follows d.skip)
    (follows' : Follows d'.skip) :
    d.skip = d'.skip ∧ ∃ n span children, ns = [n] ∧ ms = [⟨.assignment, span, "", children⟩] ∧
      Agree n ⟨.assignment, span, "", children⟩ := by
  obtain ⟨_, rfl, inside⟩ := (matches_plain rfl).1 left
  obtain ⟨ts, vs, t, rfl, target, value⟩ := matches_seq.1 inside
  rcases matches_opt.1 value with given | ⟨-, rfl, rfl⟩
  · obtain ⟨rest, there, fits, default⟩ := equals_of_value given
    obtain ⟨n, w, more, rfl, rfl, agree, assigned⟩ := assignment_over_target agrees target
      (.of_sight fits rfl) (Absent.of_sight fits rfl) right
    rcases matches_opt.1 assigned with assigned | ⟨-, -, rfl⟩
    · obtain ⟨op, more, rfl, plain, default'⟩ := plain_of_equals there fits assigned
      obtain ⟨rfl, rfl⟩ := default.unique default'
      obtain ⟨children, rfl, -⟩ := (matches_plain rfl).1 default
      exact ⟨rfl, _, _, _, rfl, rfl, agree_default agree plain⟩
    · -- the equals sign would have to follow the element
      rw [skip_skip] at follows'
      exact absurd (follows'.head there) (by decide)
  · rw [skip_skip] at follows
    obtain ⟨rfl, n, w, span, rfl, rfl, agree⟩ := lonely_agrees agrees target follows right
    exact ⟨rfl, _, _, _, rfl, rfl, agree_element agree⟩

/-! ### Rests -/

namespace Grammar

/-- What a rule matches its body matches. -/
theorem Derives.body {ctx : Context} {r : Rule}
    (derives : Derives script ctx (.expr (.rule r)) c (.matched ns d)) : ∃ ctx' nodes,
      ctx'.spacing = (script.define r).kind.inner ctx.spacing ∧
        Derives script ctx' (.expr (script.define r).body) c (.matched nodes d) := by
  generalize same : Result.matched ns d = result at derives
  cases derives with
  | silent hidden inside =>
    subst same
    exact ⟨ctx, ns, by rw [hidden]; rfl, inside⟩
  | rule _ inside =>
    cases same
    exact ⟨_, _, rfl, inside⟩
  | noRule => cases same

theorem Derives.first {ctx : Context} {a b : Peg Rule}
    (derives : Derives script ctx (.expr (.seq a b)) c (.matched ns d)) :
    ∃ nodes e, Derives script ctx (.expr a) c (.matched nodes e) := by
  cases derives with
  | seq one => exact ⟨_, _, one⟩

/-- In front of three dots, where no number is. -/
def Sight.dots : Sight :=
  { Sight.ahead ['.', '.', '.'] with known := fun r => if r = .number then .refused else .unknown }

theorem Sight.dots_fits {rest : List Char} (there : c.rest = '.' :: '.' :: '.' :: rest) :
    Sight.dots.Fits c := by
  have here : (Sight.ahead ['.', '.', '.']).Fits c :=
    Sight.ahead_fits there (List.cons_ne_nil _ _) (by rw [there]; rfl)
  refine ⟨here.text, here.char, fun r => ?_, here.clean⟩
  by_cases number : r = .number
  · subst number
    intro ctx result derives
    cases result with
    | refused => rfl
    | matched nodes d =>
      obtain ⟨_, _, -, inside⟩ := derives.body
      obtain ⟨_, _, either⟩ := inside.first
      obtain ⟨r, member, one⟩ := exists_of_anyOf either
      simp only [List.mem_cons, List.not_mem_nil, or_false] at member
      rcases member with rfl | rfl
      · cases Sight.refused here rfl one
      · obtain ⟨ctx', _, solid, inside⟩ := one.body
        obtain ⟨_, _, first⟩ := inside.first
        cases first with
        | left whole => cases Sight.refused here rfl whole
        | right _ fraction => cases fraction with
          | @seq _ _ _ _ e _ _ _ _ _ point gap digits =>
            cases Decides.stay (by rw [solid]; nofun) gap
            cases point with
            | text stripped =>
              have next : e.rest = '.' :: '.' :: rest :=
                (List.cons.inj ((stripText?_eq_some_iff.1 stripped).1.symm.trans there)).2
              cases Sight.refused (Sight.ahead_cons next rfl) rfl digits
  · simp only [Sight.dots, if_neg number]
    trivial

/-- The place after a literal. -/
theorem matches_after {s : String} {e : Peg Rule} (matched : Matches (.seq (lit s) e) c ns d) :
    ∃ u : Cursor, c.rest = s.toList ++ u.rest ∧ u.pos = c.pos + bytes s.toList ∧
    Matches e u.skip ns d := by
  obtain ⟨_, _, u, rfl, word, after⟩ := matches_seq.1 matched
  obtain ⟨rfl, there, pos⟩ := matches_text.1 word
  exact ⟨u, there, pos, after⟩

theorem skip_suffix (c : Cursor) : c.skip.rest <:+ c.rest :=
  (@derives_skip .top rfl c).advances.suffix

theorem cursor_eq {u v : Cursor} {cs : List Char} {p : Nat} (there : c.rest = cs ++ u.rest)
    (there' : c.rest = cs ++ v.rest) (pos : u.pos = p) (pos' : v.pos = p) : u = v := by
  obtain ⟨ahead, place⟩ := u
  obtain ⟨ahead', place'⟩ := v
  simp only at there there' pos pos'
  rw [List.append_cancel_left (there.symm.trans there'), pos, pos']

end Grammar

/-- A rest of a pattern and a spread. -/
theorem rest_agrees (smaller : ∀ e : Cursor, e.rest.length < c.rest.length → TargetAgrees e)
    (left : Matches (.rule .restElement) c ns d) (right : Matches (.rule .spread) c ms d')
    (follows : Follows d.skip) : d.skip = d'.skip ∧ ∃ n m s s', ns = [⟨.restElement, s, "", [n]⟩] ∧
      ms = [⟨.spread, s', "", [m]⟩] ∧ Agree n m := by
  obtain ⟨_, rfl, inside⟩ := (matches_plain rfl).1 left
  obtain ⟨_, rfl, inside'⟩ := (matches_plain rfl).1 right
  obtain ⟨u, there, pos, target⟩ := matches_after inside
  obtain ⟨v, there', pos', value⟩ := matches_after inside'
  cases cursor_eq there there' pos pos'
  have shorter : u.skip.rest.length < c.rest.length := by
    rw [there]
    exact Nat.lt_of_le_of_lt (skip_suffix u).length_le (by simp; omega)
  obtain ⟨rfl, n, w, span, rfl, rfl, agree⟩ :=
    lonely_agrees (smaller u.skip shorter) target follows value
  refine ⟨(skip_skip d).symm, n, _, _, _, rfl, rfl, fun p e made made' => agree p e made ?_⟩
  rwa [expr_of_relays relays_assignment] at made'

/-! ### Names and keys -/

namespace Grammar

theorem balanced_assignment : Balanced (.rule .assignment) :=
  ⟨rfl, rfl⟩

theorem balanced_slots : Balanced (.opt (list (.rule .arrayBindingSlot))) :=
  ⟨rfl, rfl⟩

/-- The forms of a key. -/
def keyRules : List Rule :=
  [.computedKey, .string, .number, .propertyName]

/-- A key that is matched where a name is ends with the name. -/
theorem key_of_name {k : Cursor} (name : Matches (.rule .identifier) c ns t)
    (key : Matches (.rule .propertyKey) c ms k) : k = t := by
  obtain ⟨_, -, either⟩ := (matches_plain rfl).1 key
  obtain ⟨read, advances, -⟩ := matches_identifier.1 name
  have seen : Sight.named.left keyRules = [.propertyName] := rfl
  obtain ⟨read', advances', -⟩ :=
    matches_propertyName.1 (Sight.only (Sight.named_fits read) seen either)
  have word := (Step.word_of_name read).2
  exact advances'.unique advances (Option.some.inj (read'.symm.trans word))

/-- A key that is matched where a pattern is ends with the pattern. -/
theorem key_of_target {k : Cursor} (target : Matches (.rule .bindingTarget) c ns t)
    (key : Matches (.rule .propertyKey) c ms k) : k = t := by
  rcases target_cases target with ⟨rest, there, array⟩ | ⟨rest, there, -⟩ | name
  · obtain ⟨_, -, either⟩ := (matches_plain rfl).1 key
    have seen : (Sight.ahead ['[']).left keyRules = [.computedKey] := rfl
    obtain ⟨_, -, computed⟩ :=
      (matches_plain rfl).1 (Sight.only (Sight.ahead_cons there rfl) seen either)
    obtain ⟨_, -, slots⟩ := (matches_plain rfl).1 array
    exact bracketed_unique (by decide) balanced_assignment balanced_slots computed slots
  · exact (Absent.of_sight (Sight.ahead_cons there rfl) rfl).elim key
  · exact key_of_name name key

/-- After the target of an element comes its value or what follows the element. -/
theorem after_target (element : Matches (.rule .bindingElement) c ns d) (follows : Follows d.skip) :
    ∃ ts s vs t, ns = [⟨.bindingElement, s, "", ts ++ vs⟩] ∧ Matches (.rule .bindingTarget) c ts t ∧
      (Follows t.skip ∧ vs = [] ∧ d.skip = t.skip ∨ Sight.equals.Fits t.skip ∧
        ¬Follows t.skip) := by
  obtain ⟨_, rfl, inside⟩ := (matches_plain rfl).1 element
  obtain ⟨ts, vs, t, rfl, target, value⟩ := matches_seq.1 inside
  refine ⟨ts, _, vs, t, rfl, target, ?_⟩
  rcases matches_opt.1 value with given | ⟨-, rfl, rfl⟩
  · obtain ⟨rest, there, fits, -⟩ := equals_of_value given
    exact .inr ⟨fits, fun follows => absurd (follows.head there) (by decide)⟩
  · rw [skip_skip] at follows ⊢
    exact .inl ⟨follows, rfl, rfl⟩

end Grammar

/-! ### Slots and members -/

/-- A target, possibly with a default, and a member of a literal. Only a name alone is both. -/
theorem name_agrees (left : Matches (.rule .bindingElement) c ns d)
    (right : Matches (.rule .objectMember) c ms d') (follows : Follows d.skip)
    (follows' : Follows d'.skip) :
    d.skip = d'.skip ∧ ∃ n m, ns = [n] ∧ ms = [m] ∧ MemberAgree n m := by
  obtain ⟨ts, span, vs, t, rfl, target, after⟩ := after_target left follows
  have absent {e : Peg Rule} (seen : Sight.equals.peek e = .refused)
      (seen' : refusedAhead ends e = true) : Absent e t.skip := by
    rcases after with ⟨here, -⟩ | ⟨fits, -⟩
    · exact here.absent seen'
    · exact Absent.of_sight fits seen
  obtain ⟨r, member, one⟩ := exists_of_anyOf ((matches_silent rfl).1 right)
  simp only [List.mem_cons, List.not_mem_nil, or_false] at member
  rcases member with rfl | rfl | rfl | rfl
  · exact (absent_of_target target (by decide)).elim one
  · obtain ⟨_, -, inside⟩ := (matches_plain rfl).1 one
    obtain ⟨_, _, k, -, key, rest⟩ := matches_seq.1 inside
    obtain rfl := key_of_target target key
    exact (Absent.seq (absent rfl rfl)).elim rest
  · obtain ⟨_, -, inside⟩ := (matches_plain rfl).1 one
    obtain ⟨_, _, k, -, key, rest⟩ := matches_seq.1 inside
    obtain rfl := key_of_target target key
    exact (Absent.seq (absent rfl rfl)).elim rest
  · obtain ⟨_, rfl, name⟩ := (matches_plain rfl).1 one
    rcases target_cases target with ⟨rest, there, -⟩ | ⟨rest, there, -⟩ | name'
    · exact (Absent.of_sight (Sight.ahead_cons there rfl) rfl).elim name
    · exact (Absent.of_sight (Sight.ahead_cons there rfl) rfl).elim name
    · obtain ⟨rfl, rfl⟩ := name.unique name'
      rcases after with ⟨-, rfl, same⟩ | ⟨-, none⟩
      · obtain ⟨-, -, rfl⟩ := matches_identifier.1 name
        exact ⟨same, _, _, rfl, rfl, member_name⟩
      · exact absurd follows' none

section Members

variable {N : Nat} (smaller : ∀ e : Cursor, e.rest.length < N → TargetAgrees e)
  (small : c.rest.length < N)

include smaller small

theorem slot_agrees (clean : c.skip = c) (left : Matches (.rule .arrayBindingSlot) c ns d)
    (right : Matches (.rule .arraySlot) c ms d') (follows : Follows d.skip)
    (follows' : Follows d'.skip) :
    d.skip = d'.skip ∧ ∃ n m, ns = [n] ∧ ms = [m] ∧ SlotAgree n m := by
  obtain ⟨_, rfl, inside⟩ := (matches_plain rfl).1 left
  obtain ⟨_, rfl, inside'⟩ := (matches_plain rfl).1 right
  rcases matches_opt.1 inside with element | ⟨-, rfl, rfl⟩
  · rcases matches_opt.1 inside' with element' | ⟨-, rfl, rfl⟩
    · rcases matches_alt.1 element with rest | ⟨-, element⟩
      · have dots : Sight.dots.Fits c := by
          obtain ⟨_, -, inside⟩ := (matches_plain rfl).1 rest
          obtain ⟨u, there, -⟩ := matches_after inside
          exact Sight.dots_fits there
        rcases matches_alt.1 element' with spread | ⟨-, value⟩
        · obtain ⟨same, n, m, s, s', rfl, rfl, agree⟩ :=
            rest_agrees (fun e shorter => smaller e (shorter.trans small)) rest spread follows
          exact ⟨same, _, _, rfl, rfl, slot_rest agree⟩
        · exact (Absent.of_sight dots rfl).elim value
      · have target : ∃ ts t, Matches (.rule .bindingTarget) c ts t := by
          obtain ⟨_, -, inside⟩ := (matches_plain rfl).1 element
          obtain ⟨ts, _, t, -, target, -⟩ := matches_seq.1 inside
          exact ⟨ts, t, target⟩
        obtain ⟨ts, t, target⟩ := target
        rcases matches_alt.1 element' with spread | ⟨-, value⟩
        · exact (absent_of_target target (by decide)).elim spread
        · obtain ⟨same, n, span, children, rfl, rfl, agree⟩ :=
            element_agrees (smaller c small) element value follows follows'
          exact ⟨same, _, _, rfl, rfl, slot_one agree⟩
    · rw [clean] at follows'
      exact (follows'.absent rfl).elim element
  · rw [clean] at follows
    obtain ⟨rfl, rfl⟩ := Absent.of_opt (follows.absent rfl) inside'
    exact ⟨rfl, _, _, rfl, rfl, slot_hole⟩

/-- A property of a pattern and a member of a literal. -/
theorem property_agrees (left : Matches (.rule .objectBindingProperty) c ns d)
    (right : Matches (.rule .objectMember) c ms d') (follows : Follows d.skip)
    (follows' : Follows d'.skip) :
    d.skip = d'.skip ∧ ∃ n m, ns = [n] ∧ ms = [m] ∧ MemberAgree n m := by
  obtain ⟨_, rfl, inside⟩ := (matches_plain rfl).1 left
  obtain ⟨ks, es, k, rfl, key, after⟩ := matches_seq.1 inside
  obtain ⟨u, there, pos, element⟩ := matches_after after
  obtain ⟨children, rfl, -⟩ := (matches_plain rfl).1 key
  have colon : (Sight.ahead [':']).Fits k.skip := Sight.ahead_cons there rfl
  obtain ⟨r, member, one⟩ := exists_of_anyOf ((matches_silent rfl).1 right)
  simp only [List.mem_cons, List.not_mem_nil, or_false] at member
  rcases member with rfl | rfl | rfl | rfl
  · obtain ⟨_, -, inside'⟩ := (matches_plain rfl).1 one
    obtain ⟨v, dots, -⟩ := matches_after inside'
    exact (Absent.of_sight (Sight.dots_fits dots) rfl).elim left
  · obtain ⟨_, -, inside'⟩ := (matches_plain rfl).1 one
    obtain ⟨_, _, k', -, key', after'⟩ := matches_seq.1 inside'
    obtain ⟨-, rfl⟩ := key.unique key'
    exact (Absent.seq (Absent.of_sight colon rfl)).elim after'
  · obtain ⟨_, rfl, inside'⟩ := (matches_plain rfl).1 one
    obtain ⟨ks', vs, k', rfl, key', after'⟩ := matches_seq.1 inside'
    obtain ⟨rfl, rfl⟩ := key.unique key'
    obtain ⟨v, there', pos', value⟩ := matches_after after'
    cases cursor_eq there there' pos pos'
    have shorter : u.skip.rest.length < N := by
      have := (skip_suffix u).length_le
      have := key.advances.suffix.length_le
      have := (skip_suffix k).length_le
      rw [there] at this
      simp at this
      omega
    obtain ⟨same, n, span, children, rfl, rfl, agree⟩ :=
      element_agrees (smaller u.skip shorter) element value follows follows'
    exact ⟨same, _, _, rfl, rfl, member_property agree⟩
  · obtain ⟨_, -, name⟩ := (matches_plain rfl).1 one
    obtain rfl := key_of_name name key
    exact absurd (follows'.head there) (by decide)

theorem member_agrees (left : Matches (.rule .objectBindingMember) c ns d)
    (right : Matches (.rule .objectMember) c ms d') (follows : Follows d.skip)
    (follows' : Follows d'.skip) :
    d.skip = d'.skip ∧ ∃ n m, ns = [n] ∧ ms = [m] ∧ MemberAgree n m := by
  obtain ⟨r, member, one⟩ := exists_of_anyOf ((matches_silent rfl).1 left)
  simp only [List.mem_cons, List.not_mem_nil, or_false] at member
  rcases member with rfl | rfl | rfl
  · have dots : Sight.dots.Fits c := by
      obtain ⟨_, -, inside⟩ := (matches_plain rfl).1 one
      obtain ⟨u, there, -⟩ := matches_after inside
      exact Sight.dots_fits there
    have seen :
        Sight.dots.left [.spread, .method, .propertyAssignment, .shorthand] = [.spread] := by
      rfl
    have spread := Sight.only dots seen ((matches_silent rfl).1 right)
    obtain ⟨same, n, m, s, s', rfl, rfl, agree⟩ :=
      rest_agrees (fun e shorter => smaller e (shorter.trans small)) one spread follows
    exact ⟨same, _, _, rfl, rfl, member_rest agree⟩
  · exact property_agrees smaller small one right follows follows'
  · exact name_agrees one right follows follows'

end Members

end Scriptlet
