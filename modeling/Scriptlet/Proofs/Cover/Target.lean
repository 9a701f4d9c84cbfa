import Scriptlet.Proofs.Cover.Element

/-!
Patterns and the literals that look like them.

The grammar matches a pattern in brackets and a literal at the same place in the same way: list by
list, and element by element. Main statement: `target_agrees`.
-/

namespace Scriptlet

open Grammar Scriptlet.Tree

variable {c d d' : Cursor} {a b : Peg Rule} {ns ms : List (Grammar.Node Rule)}

/-! ### Lists -/

namespace Grammar

/-- A repetition after layout is a repetition that skips it. -/
theorem repeats_of_star (matched : Matches (.star a) c.skip ns d) :
    ∃ e, Repeats a c ns e ∧ e.skip = d.skip := by
  rcases matches_star.1 matched with ⟨none, rfl, rfl⟩ | ⟨first, rest, f, rfl, one, more⟩
  · exact ⟨c, repeats_iff.2 (.inl ⟨none, rfl, rfl⟩), (skip_skip c).symm⟩
  · exact ⟨d, repeats_iff.2 (.inr ⟨first, rest, f, rfl, one, more⟩), rfl⟩

theorem follows_of_comma {e : Peg Rule} (matched : Matches (.seq (lit ",") e) c ns d) :
    Follows c := by
  obtain ⟨u, there, -⟩ := matches_after matched
  exact ⟨',', by decide, u.rest, there⟩

theorem follows_of_repeats {e : Peg Rule} (repeats : Repeats (.seq (lit ",") e) c ns d)
    (follows : Follows d.skip) :
    Follows c.skip := by
  rcases repeats_iff.1 repeats with ⟨-, -, rfl⟩ | ⟨_, _, _, -, one, -⟩
  · exact follows
  · exact follows_of_comma one

end Grammar

/-- What two lists have in common: their items agree where both are matched and followed by what may
follow an item, and both end where one of them may end. -/
structure Lockstep (a b : Peg Rule) (R : Grammar.Node Rule → Grammar.Node Rule → Prop)
    (stop : Cursor → Prop)
    (N : Nat) : Prop where
  item : ∀ {c ns d ms d'}, c.rest.length < N → c.skip = c → Matches a c ns d → Matches b c ms d' →
    Follows d.skip → Follows d'.skip → d.skip = d'.skip ∧ ∃ n m, ns = [n] ∧ ms = [m] ∧ R n m
  follows : ∀ {c}, stop c → Follows c
  left : ∀ {c}, stop c → Absent (.seq (lit ",") a) c
  right : ∀ {c}, stop c → Absent (.seq (lit ",") b) c

namespace Lockstep

variable {R : Grammar.Node Rule → Grammar.Node Rule → Prop} {stop : Cursor → Prop} {N : Nat}
  (lockstep : Lockstep a b R stop N)

include lockstep

/-- Further items. -/
theorem repeats {c' : Cursor} (one : Repeats (.seq (lit ",") a) c ns d)
    (other : Repeats (.seq (lit ",") b) c' ms d')
    (same : c.skip = c'.skip) (small : c.rest.length ≤ N) (stops : stop d.skip)
    (stops' : stop d'.skip) :
    d.skip = d'.skip ∧ List.Forall₂ R ns ms := by
  refine one.induction (motive := fun c ns => ∀ c' ms, c.skip = c'.skip → c.rest.length ≤ N →
    Repeats (.seq (lit ",") b) c' ms d' → d.skip = d'.skip ∧ List.Forall₂ R ns ms) ?_ ?_ c' ms same
      small other
  · intro _ c' ms same _ other
    have stops : stop c'.skip := same ▸ stops
    obtain ⟨rfl, rfl⟩ := Absent.of_repeats (lockstep.right stops) other
    exact ⟨same, .nil⟩
  · intro c first f rest one more ih c' ms same small other
    rcases repeats_iff.1 other with ⟨-, -, rfl⟩ | ⟨first', rest', f', rfl, one', more'⟩
    · rw [same] at one
      exact (lockstep.left stops').elim one
    · rw [← same] at one'
      obtain ⟨u, there, pos, item⟩ := matches_after one
      obtain ⟨v, there', pos', item'⟩ := matches_after one'
      cases cursor_eq there there' pos pos'
      have shorter : u.skip.rest.length < N := by
        have := (skip_suffix u).length_le
        have := (skip_suffix c).length_le
        rw [there] at this
        simp at this
        omega
      obtain ⟨same, n, m, rfl, rfl, agree⟩ := lockstep.item shorter (skip_skip u) item item'
        (follows_of_repeats more (lockstep.follows stops))
          (follows_of_repeats more' (lockstep.follows stops'))
      have := item.advances.suffix.length_le
      obtain ⟨ended, others⟩ := ih f' rest' same (by omega) more'
      exact ⟨ended, .cons agree others⟩

/-- Items between commas. -/
theorem list {f f' e e' : Cursor} {fs fs' : List (Grammar.Node Rule)} (small : c.rest.length < N)
    (clean : c.skip = c)
    (first : Matches a c fs f) (first' : Matches b c fs' f')
    (others : Matches (.star (.seq (lit ",") a)) f.skip ns e)
    (others' : Matches (.star (.seq (lit ",") b)) f'.skip ms e') (stops : stop e.skip)
    (stops' : stop e'.skip) :
    e.skip = e'.skip ∧ List.Forall₂ R (fs ++ ns) (fs' ++ ms) := by
  obtain ⟨g, more, same⟩ := repeats_of_star others
  obtain ⟨g', more', same'⟩ := repeats_of_star others'
  rw [← same] at stops ⊢
  rw [← same'] at stops' ⊢
  obtain ⟨ended, n, m, rfl, rfl, agree⟩ := lockstep.item small clean first first'
    (follows_of_repeats more (lockstep.follows stops))
      (follows_of_repeats more' (lockstep.follows stops'))
  have := first.advances.suffix.length_le
  obtain ⟨last, rest⟩ := lockstep.repeats more more' ended (by omega) stops stops'
  exact ⟨last, .cons agree rest⟩

end Lockstep

/-! ### Patterns in brackets -/

theorem absent_comma {e : Peg Rule} {x : Char} {rest : List Char} (there : c.rest = x :: rest)
    (apart : x ≠ ',') :
    Absent (.seq (lit ",") e) c := by
  intro nodes d derives
  obtain ⟨u, there', -⟩ := matches_after derives
  exact apart (List.cons.inj (there.symm.trans there')).1

theorem lockstep_slots {N : Nat} (smaller : ∀ e : Cursor, e.rest.length < N → TargetAgrees e) :
    Lockstep (.rule .arrayBindingSlot) (.rule .arraySlot) SlotAgree
      (fun c => ∃ rest, c.rest = ']' :: rest) N where
  item small clean left right follows follows' :=
    slot_agrees smaller small clean left right follows follows'
  follows := fun ⟨rest, there⟩ => ⟨']', by decide, rest, there⟩
  left := fun ⟨rest, there⟩ => absent_comma there (by decide)
  right := fun ⟨rest, there⟩ => absent_comma there (by decide)

/-- A slot may be empty, so that there is always one. -/
theorem exists_list {r : Rule} {e : Peg Rule} (plain : (script.define r).kind = .plain)
    (empty : (script.define r).body = .opt e) (matched : Matches (.opt (list (.rule r))) c ns d) :
    Matches (list (.rule r)) c ns d := by
  rcases matches_opt.1 matched with list | ⟨none, -⟩
  · exact list
  · cases none with
    | seqFirst none => cases none with
      | silent hidden =>
        rw [plain] at hidden
        cases hidden
      | noRule _ inside =>
        rw [empty] at inside
        cases inside
    | seqGap _ gap => cases gap.unique (derives_skip rfl _)
    | seqSecond _ _ none => cases none

theorem array_agrees (smaller : ∀ e : Cursor, e.rest.length < c.rest.length → TargetAgrees e)
    (left : Matches (.rule .arrayBinding) c ns d) (right : Matches (.rule .arrayLiteral) c ms d') :
    d = d' ∧ ∃ n m, ns = [n] ∧ ms = [m] ∧ Agree n m := by
  obtain ⟨ns, rfl, inside⟩ := (matches_plain rfl).1 left
  obtain ⟨ms, rfl, inside'⟩ := (matches_plain rfl).1 right
  have balanced : Balanced (.opt (list (.rule .arraySlot))) := ⟨rfl, rfl⟩
  refine ⟨bracketed_unique (by decide) balanced_slots balanced inside inside', _, _, rfl, rfl,
    agree_array ?_⟩
  obtain ⟨rest, f, there, slots, ends, -⟩ := matches_bracketed.1 inside
  obtain ⟨rest', f', there', slots', ends', -⟩ := matches_bracketed.1 inside'
  cases there.symm.trans there'
  have small : (Cursor.skip ⟨rest, c.pos + bytes ['[']⟩).rest.length < c.rest.length := by
    have := (skip_suffix ⟨rest, c.pos + bytes ['[']⟩).length_le
    simp [there]
    simp at this
    omega
  obtain ⟨first, others, g, rfl, one, more⟩ := matches_seq.1 (exists_list rfl rfl slots)
  obtain ⟨first', others', g', rfl, one', more'⟩ := matches_seq.1 (exists_list rfl rfl slots')
  exact
    ((lockstep_slots smaller).list small (skip_skip _) one one' more more' ⟨_, ends⟩ ⟨_, ends'⟩).2

/-! ### Object patterns -/

/-- Where the members of an object end. -/
def MembersEnd (c : Cursor) : Prop :=
  (∃ rest, c.rest = '\x7d' :: rest) ∨
    ∃ u : Cursor, c.rest = ',' :: u.rest ∧ ∃ rest, u.skip.rest = '\x7d' :: rest

theorem absent_at_end {e : Peg Rule} (seen : (Sight.ahead ['\x7d']).peek e = .refused)
    (stop : MembersEnd c) :
    Absent (.seq (lit ",") e) c := by
  rcases stop with ⟨rest, there⟩ | ⟨u, there, rest, next⟩
  · exact absent_comma there (by decide)
  · intro nodes d derives
    obtain ⟨v, there', pos, inside⟩ := matches_after derives
    have same : v.skip.rest = u.skip.rest :=
      congrArg clean (List.cons.inj (there'.symm.trans there)).2
    exact (Absent.of_sight (Sight.ahead_cons (same.trans next) rfl) seen).elim inside

theorem lockstep_members {N : Nat} (smaller : ∀ e : Cursor, e.rest.length < N → TargetAgrees e) :
    Lockstep (.rule .objectBindingMember) (.rule .objectMember) MemberAgree MembersEnd N where
  item small _ left right follows follows' :=
    member_agrees smaller small left right follows follows'
  follows := fun stop => by
    rcases stop with ⟨rest, there⟩ | ⟨u, there, -⟩
    · exact ⟨'\x7d', by decide, rest, there⟩
    · exact ⟨',', by decide, u.rest, there⟩
  left := absent_at_end rfl
  right := absent_at_end rfl

/-- After the last item of a list may come a comma, and then its end. -/
theorem exists_items {f : Cursor} {rest : List Char} (matched : Matches (optionalList a) c ns f)
    (there : f.skip.rest = '\x7d' :: rest) : (ns = [] ∧ f = c) ∨
      ∃ first others g e, ns = first ++ others ∧ Matches a c first g ∧
        Matches (.star (.seq (lit ",") a)) g.skip others e ∧ MembersEnd e.skip := by
  rcases matches_opt.1 matched with items | ⟨-, same⟩
  · obtain ⟨first, more, g, rfl, one, tail⟩ := matches_seq.1 items
    obtain ⟨others, comma, e, rfl, others', last⟩ := matches_seq.1 tail
    refine .inr ⟨first, others, g, e, ?_, one, others', ?_⟩
    · rcases matches_opt.1 last with comma' | ⟨-, rfl, -⟩
      · obtain ⟨rfl, -⟩ := matches_text.1 comma'
        simp
      · simp
    · rcases matches_opt.1 last with comma' | ⟨-, -, rfl⟩
      · obtain ⟨-, ahead, -⟩ := matches_text.1 comma'
        exact .inr ⟨f, ahead, rest, there⟩
      · rw [skip_skip] at there
        exact .inl ⟨rest, there⟩
  · exact .inl same

theorem object_agrees (smaller : ∀ e : Cursor, e.rest.length < c.rest.length → TargetAgrees e)
    (left : Matches (.rule .objectBinding) c ns d)
    (right : Matches (.rule .objectLiteral) c ms d') :
    d = d' ∧ ∃ n m, ns = [n] ∧ ms = [m] ∧ Agree n m := by
  obtain ⟨ns, rfl, inside⟩ := (matches_plain rfl).1 left
  obtain ⟨ms, rfl, inside'⟩ := (matches_plain rfl).1 right
  have balanced : Balanced (optionalList (.rule .objectBindingMember)) := ⟨rfl, rfl⟩
  have balanced' : Balanced (optionalList (.rule .objectMember)) := ⟨rfl, rfl⟩
  refine ⟨bracketed_unique (by decide) balanced balanced' inside inside', _, _, rfl, rfl,
    agree_object ?_⟩
  obtain ⟨rest, f, there, items, ends, -⟩ := matches_bracketed.1 inside
  obtain ⟨rest', f', there', items', ends', -⟩ := matches_bracketed.1 inside'
  cases there.symm.trans there'
  have small : (Cursor.skip ⟨rest, c.pos + bytes ['\x7b']⟩).rest.length < c.rest.length := by
    have := (skip_suffix ⟨rest, c.pos + bytes ['\x7b']⟩).length_le
    simp [there]
    simp at this
    omega
  rcases exists_items items ends with ⟨rfl, rfl⟩ | ⟨first, others, g, e, rfl, one, more, stop⟩
  · rcases exists_items items' ends' with ⟨rfl, rfl⟩ |
      ⟨first', others', g', e', rfl, one', more', stop'⟩
    · exact .nil
    · rw [skip_skip] at ends
      exact (Absent.of_sight (Sight.ahead_cons ends rfl) rfl).elim one'
  · rcases exists_items items' ends' with ⟨rfl, rfl⟩ |
      ⟨first', others', g', e', rfl, one', more', stop'⟩
    · rw [skip_skip] at ends'
      exact (Absent.of_sight (Sight.ahead_cons ends' rfl) rfl).elim one
    · exact ((lockstep_members smaller).list small (skip_skip _) one one' more more' stop stop').2

/-! ### All patterns -/

/-- A pattern and an operand that are matched at the same place end together, and the pattern is
what the operand is if it is read as one. -/
theorem target_agrees (c : Cursor) : TargetAgrees c := by
  induction length : c.rest.length using Nat.strongRecOn generalizing c with | _ N ih => ?_
  have smaller (e : Cursor) (shorter : e.rest.length < c.rest.length) : TargetAgrees e :=
    ih e.rest.length (length ▸ shorter) e rfl
  intro ns d ms d' target operand
  have either := (matches_silent rfl).1 operand
  rcases target_cases target with ⟨rest, there, array⟩ | ⟨rest, there, object⟩ | name
  · have seen : (Sight.ahead ['[']).left operandRules = [.arrayLiteral] := rfl
    exact array_agrees smaller array (Sight.only (Sight.ahead_cons there rfl) seen either)
  · have seen : (Sight.ahead ['\x7b']).left operandRules = [.objectLiteral] := rfl
    exact object_agrees smaller object (Sight.only (Sight.ahead_cons there rfl) seen either)
  · have seen : Sight.named.left operandRules = [.identifier] := rfl
    have same := Sight.only (Sight.named_fits (matches_identifier.1 name).1) seen either
    obtain ⟨rfl, rfl⟩ := name.unique same
    obtain ⟨-, -, rfl⟩ := matches_identifier.1 name
    exact ⟨rfl, _, _, rfl, rfl, agree_identifier⟩

end Scriptlet
