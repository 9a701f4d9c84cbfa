import Scriptlet.Proofs.Grammar.Local

/-!
What stands between brackets.

The lexer tells where a bracket is closed, so whatever matches between two brackets ends in front of
the same closing bracket, and the text after it does not matter. Main statements: `path_inside`,
`bracketed_unique` and `bracketed_append`.
-/

namespace Scriptlet.Grammar

open Lexer Relation

variable {c d : Cursor} {o x y : Char} {e e' : Peg Rule} {nodes nodes' : List (Node Rule)}
  {cs ρ τ ys : List Char}
  {p q : Nat}

theorem matches_text : Matches (.text cs) c nodes d ↔
    nodes = [] ∧ c.rest = cs ++ d.rest ∧ d.pos = c.pos + bytes cs := by
  constructor
  · intro derives
    cases derives with
    | text stripped => exact ⟨rfl, stripText?_eq_some_iff.1 stripped⟩
  · rintro ⟨rfl, there⟩
    exact Derives.text (stripText?_eq_some_iff.2 there)

/-- An expression between brackets. -/
def bracketed (o : Char) (e : Peg Rule) (x : Char) : Peg Rule :=
  seqs [.text [o], e, .text [x]]

theorem matches_bracketed : Matches (bracketed o e x) c nodes d ↔
    ∃ rest f, c.rest = o :: rest ∧ Matches e (Cursor.skip ⟨rest, c.pos + bytes [o]⟩) nodes f ∧
      f.skip.rest = x :: d.rest ∧ d.pos = f.skip.pos + bytes [x] := by
  constructor
  · intro derives
    obtain ⟨_, _, ⟨rest, pos⟩, rfl, first, others⟩ := matches_seq.1 derives
    obtain ⟨_, _, f, rfl, between, last⟩ := matches_seq.1 others
    obtain ⟨rfl, there, place⟩ := matches_text.1 first
    obtain ⟨rfl, ends, behind⟩ := matches_text.1 last
    cases place
    exact ⟨rest, f, there, by simpa using between, ends, behind⟩
  · rintro ⟨rest, f, there, between, ends, behind⟩
    have last := matches_text.2 ⟨rfl, ends, behind⟩
    have first : Matches (.text [o]) c [] ⟨rest, c.pos + bytes [o]⟩ :=
      matches_text.2 ⟨rfl, there, rfl⟩
    have others := matches_seq.2 ⟨nodes, [], f, (List.append_nil nodes).symm, between, last⟩
    exact matches_seq.2 ⟨[], nodes, _, rfl, first, others⟩

theorem Cursor.clean_of_skip (same : c.skip = d) : layoutUnit d.rest = none :=
  same ▸ layoutUnit_clean c.rest

/-! ### Where the bracket is closed -/

namespace Lexer

/-- A bracket that nothing has opened stops the lexer. -/
theorem step_closing {rest : List Char} (closing : closes x = true) :
    step ([], x :: rest) = none := by
  simp only [closes, Bool.or_eq_true, beq_iff_eq] at closing
  rcases closing with (rfl | rfl) | rfl <;> rfl

/-- Where two ways come to a halt, they have come to the same place. -/
theorem Path.halt {s t u : State} (path : Path s t) (path' : Path s u) (halts : Lexer.step t = none)
    (halts' : Lexer.step u = none) : t = u := by
  have stays {s t : State} (halts : Lexer.step s = none) (path : Path s t) : s = t := by
    rcases path.cases_head with same | ⟨_, stepped, -⟩
    · exact same
    · cases halts.symm.trans stepped
  rcases Nat.le_total u.2.length t.2.length with shorter | longer
  · exact stays halts (path.join path' shorter)
  · exact (stays halts' (path'.join path longer)).symm

end Lexer

/-- What may stand between brackets: it leaves nothing open. -/
structure Balanced (e : Peg Rule) : Prop where
  tracked : track .free [] e = some []
  words : isSlash e = false

/-- What is between brackets takes the lexer from one bracket to the other. -/
theorem path_inside {f : Cursor} (balanced : Balanced e) (matched : Matches e c.skip nodes f) :
    Path ([], c.rest) ([], f.skip.rest) := by
  have stands : Stands .free [] c.skip.rest (.expr e) :=
    ⟨fun _ _ => layoutUnit_clean c.rest, fun own => by rw [balanced.words] at own; cases own⟩
  have inside : Path ([] ++ [], c.skip.rest) ([] ++ [], f.rest) :=
    matched.follows rfl rfl balanced.tracked stands
  exact ((path_clean rfl c.rest).trans inside).trans (path_clean rfl f.rest)

/-- Between brackets there is one place to end at. -/
theorem bracketed_unique {d' : Cursor} (closing : closes x = true) (balanced : Balanced e)
    (balanced' : Balanced e')
    (one : Matches (bracketed o e x) c nodes d) (other : Matches (bracketed o e' x) c nodes' d') :
    d = d' := by
  obtain ⟨rest, f, there, between, ends, -⟩ := matches_bracketed.1 one
  obtain ⟨rest', f', there', between', ends', -⟩ := matches_bracketed.1 other
  cases there.symm.trans there'
  have path := path_inside balanced between
  have path' := path_inside balanced' between'
  rw [ends] at path
  rw [ends'] at path'
  have same := congrArg Prod.snd (path.halt path' (step_closing closing) (step_closing closing))
  exact one.advances.unique other.advances (List.cons.inj same).2

/-! ### What stands behind the bracket -/

section Moved

variable (closing : closes y = true) (closed : Closed τ)

include closing closed

/-- Layout is the same before the bracket. -/
theorem skip_moved (ahead : c.rest = ρ ++ τ) (path : Path ([], ρ ++ y :: ys) ([], y :: ys)) :
    ∃ ρ', c.skip.rest = ρ' ++ τ ∧ Cursor.skip ⟨ρ ++ y :: ys, c.pos⟩ = ⟨ρ' ++ y :: ys, c.skip.pos⟩ ∧
      Path ([], ρ' ++ y :: ys) ([], y :: ys) := by
  have skipped : Derives script .top .gap c (.matched [] c.skip) := derives_skip rfl c
  have moved := gap_moved closing closed rfl ahead path (fun _ => rfl) skipped
  obtain ⟨ρ', rest, derives, path'⟩ :=
    @onward .top c c.skip [] [] [] [] ρ τ ys y .gap [] rfl path rfl trivial moved
  exact ⟨ρ', rest, (gap_eq derives).2.symm, path'⟩

/-- A match is the same before the bracket. -/
theorem Matches.moved (ahead : c.rest = ρ ++ τ) (path : Path ([], ρ ++ y :: ys) ([], y :: ys))
    (matched : Matches e c nodes d) (balanced : Balanced e)
    (clean : layoutUnit (ρ ++ y :: ys) = none) :
    ∃ ρ', d.rest = ρ' ++ τ ∧ Matches e ⟨ρ ++ y :: ys, c.pos⟩ nodes ⟨ρ' ++ y :: ys, d.pos⟩ ∧
      Path ([], ρ' ++ y :: ys) ([], y :: ys) := by
  have stands : Stands .free [] (ρ ++ y :: ys) (.expr e) :=
    ⟨fun _ _ => clean, fun own => by rw [balanced.words] at own; cases own⟩
  have path : Path ([] ++ [], ρ ++ y :: ys) ([], y :: ys) := path
  have tracked : trackJob Context.top.spacing [] (.expr e) = some [] := balanced.tracked
  exact onward rfl path tracked stands
    (Derives.moved matched closing closed rfl rfl List.suffix_rfl ahead path tracked stands)

end Moved

/-- What is between brackets does not depend on what comes after them. -/
theorem bracketed_append (rest : List Char) (closing : closes x = true) (balanced : Balanced e)
    (matched : Matches (bracketed o e x) ⟨cs, p⟩ nodes ⟨[], q⟩) :
    Matches (bracketed o e x) ⟨cs ++ rest, p⟩ nodes ⟨rest, q⟩ := by
  obtain ⟨inner, f, there, between, ends, behind⟩ := matches_bracketed.1 matched
  simp only at there ends behind
  subst there
  have path := path_inside balanced between
  rw [ends] at path
  obtain ⟨ρ, same⟩ := path.suffix
  simp only at same
  subst same
  have path' : Path ([], ρ ++ x :: rest) ([], x :: rest) :=
    Path.swap (b := []) closing (closed_cons closing) path
  have closed : Closed [x] := closed_cons closing
  obtain ⟨ρ₁, rest₁, skip₁, path₁⟩ :=
    skip_moved (c := ⟨ρ ++ [x], p + bytes [o]⟩) closing closed rfl path'
  obtain ⟨ρ₂, rest₂, between', path₂⟩ :=
    Matches.moved closing closed rest₁ path₁ between balanced (Cursor.clean_of_skip skip₁)
  obtain ⟨ρ₃, rest₃, skip₃, -⟩ := skip_moved closing closed rest₂ path₂
  refine matches_bracketed.2 ⟨ρ ++ x :: rest, ⟨ρ₂ ++ x :: rest, f.pos⟩, by simp, ?_, ?_, ?_⟩
  · rw [skip₁]
    exact between'
  · rw [rest₃] at ends
    rw [skip₃, List.append_cancel_right (ends.trans (List.nil_append [x]).symm), List.nil_append]
  · rw [skip₃]
    exact behind

end Scriptlet.Grammar
