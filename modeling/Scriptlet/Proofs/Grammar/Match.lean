import Scriptlet.Grammar.Peg

/-!
Matches as derivations.

The matcher is bounded in depth and keeps a trail of what it expected. Neither has a say in what is
matched: main statement `run_derives`, what the matcher gives within a depth is what the rules of
matching derive, and these leave no choice (`Derives.unique`).
-/

namespace Scriptlet.Grammar

variable {R : Type}

/-- What there is to match: an expression, the layout before the next part, or more of what a
repetition repeats. -/
inductive Job (R : Type) where
  | expr (e : Peg R)
  | gap
  | more (e : Peg R)

/-- How a match ends, apart from what was expected on the way. -/
inductive Result (R : Type) where
  | matched (nodes : List (Node R)) (cursor : Cursor)
  | refused

def Outcome.result? : Outcome R → Option (Result R)
  | .matched nodes c _ => some (.matched nodes c)
  | .refused _ => some .refused
  | .exhausted => none

theorem Outcome.matched_of_result? {o : Outcome R} {nodes : List (Node R)} {c : Cursor}
    (result : o.result? = some (.matched nodes c)) : ∃ t, o = .matched nodes c t := by
  cases o <;> cases result
  exact ⟨_, rfl⟩

theorem Outcome.refused_of_result? {o : Outcome R} (result : o.result? = some .refused) :
    ∃ t, o = .refused t := by
  cases o <;> cases result
  exact ⟨_, rfl⟩

/-- The nodes that a rule gives for those of its body. -/
def RuleKind.enclose (kind : RuleKind) (r : R) (ctx : Context) (before after : Cursor)
    (nodes : List (Node R)) : List (Node R) :=
  if kind.outer ctx.spacing != .solid && ctx.looking == .nowhere then
    let text :=
      if kind = .token then String.ofList (takeBytes (after.pos - before.pos) before.rest) else ""
    [⟨r, ⟨before.pos, after.pos⟩, text, nodes⟩]
  else nodes

namespace Context

/-- The context of an expression that must not match. -/
def flipped (ctx : Context) : Context :=
  { ctx with looking := ctx.looking.flip }

/-- The context inside a rule. -/
def within (ctx : Context) (kind : RuleKind) : Context :=
  { ctx with spacing := kind.inner ctx.spacing }

/-- The context of layout. -/
def tight (ctx : Context) : Context :=
  { ctx with spacing := .solid }

end Context

/-- The rules of matching. -/
inductive Derives (g : RuleSet R) : Context → Job R → Cursor → Result R → Prop where
  | text {ctx : Context} {cs : List Char} {c d : Cursor} :
      stripText? cs c = some d → Derives g ctx (.expr (.text cs)) c (.matched [] d)
  | noText {ctx : Context} {cs : List Char} {c : Cursor} :
      stripText? cs c = none → Derives g ctx (.expr (.text cs)) c .refused
  | char {ctx : Context} {k : CharClass} {x : Char} {rest : List Char} {pos : Nat} :
      k.holds x = true →
      Derives g ctx (.expr (.char k)) ⟨x :: rest, pos⟩ (.matched [] ⟨rest, pos + x.utf8Size⟩)
  | noChar {ctx : Context} {k : CharClass} {x : Char} {rest : List Char} {pos : Nat} :
      k.holds x = false → Derives g ctx (.expr (.char k)) ⟨x :: rest, pos⟩ .refused
  | charEnd {ctx : Context} {k : CharClass} {pos : Nat} :
      Derives g ctx (.expr (.char k)) ⟨[], pos⟩ .refused
  | start {ctx : Context} {c : Cursor} :
      c.pos = 0 → Derives g ctx (.expr .start) c (.matched [] c)
  | noStart {ctx : Context} {c : Cursor} : c.pos ≠ 0 → Derives g ctx (.expr .start) c .refused
  | finish {ctx : Context} {c : Cursor} :
      c.rest = [] → Derives g ctx (.expr .finish) c (.matched [] c)
  | noFinish {ctx : Context} {c : Cursor} : c.rest ≠ [] → Derives g ctx (.expr .finish) c .refused
  | opt {ctx : Context} {e : Peg R} {c d : Cursor} {nodes : List (Node R)} :
      Derives g ctx (.expr e) c (.matched nodes d) →
      Derives g ctx (.expr (.opt e)) c (.matched nodes d)
  | optNone {ctx : Context} {e : Peg R} {c : Cursor} :
      Derives g ctx (.expr e) c .refused → Derives g ctx (.expr (.opt e)) c (.matched [] c)
  | not {ctx : Context} {e : Peg R} {c : Cursor} :
      Derives g ctx.flipped (.expr e) c .refused → Derives g ctx (.expr (.not e)) c (.matched [] c)
  | notNone {ctx : Context} {e : Peg R} {c d : Cursor} {nodes : List (Node R)} :
      Derives g ctx.flipped (.expr e) c (.matched nodes d) →
        Derives g ctx (.expr (.not e)) c .refused
  | left {ctx : Context} {a b : Peg R} {c d : Cursor} {nodes : List (Node R)} :
      Derives g ctx (.expr a) c (.matched nodes d) →
      Derives g ctx (.expr (.alt a b)) c (.matched nodes d)
  | right {ctx : Context} {a b : Peg R} {c : Cursor} {result : Result R} :
      Derives g ctx (.expr a) c .refused → Derives g ctx (.expr b) c result →
      Derives g ctx (.expr (.alt a b)) c result
  | seq {ctx : Context} {a b : Peg R} {c d e f : Cursor} {first gap second : List (Node R)} :
      Derives g ctx (.expr a) c (.matched first d) → Derives g ctx .gap d (.matched gap e) →
      Derives g ctx (.expr b) e (.matched second f) →
      Derives g ctx (.expr (.seq a b)) c (.matched (first ++ second) f)
  | seqFirst {ctx : Context} {a b : Peg R} {c : Cursor} :
      Derives g ctx (.expr a) c .refused → Derives g ctx (.expr (.seq a b)) c .refused
  | seqGap {ctx : Context} {a b : Peg R} {c d : Cursor} {first : List (Node R)} :
      Derives g ctx (.expr a) c (.matched first d) → Derives g ctx .gap d .refused →
      Derives g ctx (.expr (.seq a b)) c .refused
  | seqSecond {ctx : Context} {a b : Peg R} {c d e : Cursor} {first gap : List (Node R)} :
      Derives g ctx (.expr a) c (.matched first d) → Derives g ctx .gap d (.matched gap e) →
      Derives g ctx (.expr b) e .refused → Derives g ctx (.expr (.seq a b)) c .refused
  | star {ctx : Context} {e : Peg R} {c d f : Cursor} {first rest : List (Node R)} :
      Derives g ctx (.expr e) c (.matched first d) → Derives g ctx (.more e) d (.matched rest f) →
      Derives g ctx (.expr (.star e)) c (.matched (first ++ rest) f)
  | starNone {ctx : Context} {e : Peg R} {c : Cursor} :
      Derives g ctx (.expr e) c .refused → Derives g ctx (.expr (.star e)) c (.matched [] c)
  | silent {ctx : Context} {r : R} {c : Cursor} {result : Result R} :
      (g.define r).kind = .silent → Derives g ctx (.expr (g.define r).body) c result →
      Derives g ctx (.expr (.rule r)) c result
  | rule {ctx : Context} {r : R} {c d : Cursor} {nodes : List (Node R)} :
      (g.define r).kind ≠ .silent →
      Derives g (ctx.within (g.define r).kind) (.expr (g.define r).body) c (.matched nodes d) →
      Derives g ctx (.expr (.rule r)) c (.matched ((g.define r).kind.enclose r ctx c d nodes) d)
  | noRule {ctx : Context} {r : R} {c : Cursor} :
      (g.define r).kind ≠ .silent →
      Derives g (ctx.within (g.define r).kind) (.expr (g.define r).body) c .refused →
      Derives g ctx (.expr (.rule r)) c .refused
  | gap {ctx : Context} {c : Cursor} {result : Result R} :
      ctx.spacing = .free → Derives g ctx.tight (.expr g.layout) c result →
        Derives g ctx .gap c result
  | noGap {ctx : Context} {c : Cursor} :
      ctx.spacing ≠ .free → Derives g ctx .gap c (.matched [] c)
  | more {ctx : Context} {e : Peg R} {c d f h : Cursor} {gap first rest : List (Node R)} :
      Derives g ctx .gap c (.matched gap d) → Derives g ctx (.expr e) d (.matched first f) →
      Derives g ctx (.more e) f (.matched rest h) →
      Derives g ctx (.more e) c (.matched (first ++ rest) h)
  | moreEnd {ctx : Context} {e : Peg R} {c d : Cursor} {gap : List (Node R)} :
      Derives g ctx .gap c (.matched gap d) → Derives g ctx (.expr e) d .refused →
      Derives g ctx (.more e) c (.matched [] c)
  | moreGap {ctx : Context} {e : Peg R} {c : Cursor} :
      Derives g ctx .gap c .refused → Derives g ctx (.more e) c (.matched [] c)

variable {g : RuleSet R} {ctx : Context} {j : Job R} {c : Cursor} {r r' : Result R}

/-- A match can end in one way only. -/
theorem Derives.unique (one : Derives g ctx j c r) (other : Derives g ctx j c r') : r = r' := by
  induction one generalizing r' with
  | text | noText | char | noChar | charEnd | start | noStart | finish | noFinish =>
    cases other <;> simp_all
  | opt _ ih => cases other with
    | opt body => exact ih body
    | optNone body => cases ih body
  | optNone _ ih => cases other with
    | opt body => cases ih body
    | optNone => rfl
  | not _ ih => cases other with
    | not => rfl
    | notNone body => cases ih body
  | notNone _ ih => cases other with
    | not body => cases ih body
    | notNone => rfl
  | left _ ih => cases other with
    | left body => exact ih body
    | right none => cases ih none
  | right _ _ first second => cases other with
    | left body => cases first body
    | right _ body => exact second body
  | seq _ _ _ first gap second => cases other with
    | seq a b c =>
      cases first a
      cases gap b
      cases second c
      rfl
    | seqFirst a => cases first a
    | seqGap a b =>
      cases first a
      cases gap b
    | seqSecond a b c =>
      cases first a
      cases gap b
      cases second c
  | seqFirst _ first => cases other with
    | seq a _ _ => cases first a
    | seqFirst | seqGap | seqSecond => rfl
  | seqGap _ _ first gap => cases other with
    | seq a b _ =>
      cases first a
      cases gap b
    | seqFirst | seqGap | seqSecond => rfl
  | seqSecond _ _ _ first gap second => cases other with
    | seq a b c =>
      cases first a
      cases gap b
      cases second c
    | seqFirst | seqGap | seqSecond => rfl
  | star _ _ first rest => cases other with
    | star a b =>
      cases first a
      cases rest b
      rfl
    | starNone a => cases first a
  | starNone _ first => cases other with
    | star a _ => cases first a
    | starNone => rfl
  | silent hidden _ ih => cases other with
    | silent _ body => exact ih body
    | rule given | noRule given => exact absurd hidden given
  | rule given _ ih => cases other with
    | silent hidden => exact absurd hidden given
    | rule _ body =>
      cases ih body
      rfl
    | noRule _ body => cases ih body
  | noRule given _ ih => cases other with
    | silent hidden => exact absurd hidden given
    | rule _ body => cases ih body
    | noRule => rfl
  | gap free _ ih => cases other with
    | gap _ body => exact ih body
    | noGap bound => exact absurd free bound
  | noGap bound => cases other with
    | gap free => exact absurd free bound
    | noGap => rfl
  | more _ _ _ gap first rest => cases other with
    | more a b c =>
      cases gap a
      cases first b
      cases rest c
      rfl
    | moreEnd a b =>
      cases gap a
      cases first b
    | moreGap a => cases gap a
  | moreEnd _ _ gap first => cases other with
    | more a b _ =>
      cases gap a
      cases first b
    | moreEnd | moreGap => rfl
  | moreGap _ gap => cases other with
    | more a _ _ => cases gap a
    | moreEnd | moreGap => rfl

/-! ### The matcher -/

namespace RuleSet

variable {t : Trail R} {o : Outcome R}

/-- What the matcher gives within a depth is derived. -/
structure Derived (g : RuleSet R) (depth : Nat) : Prop where
  run : ∀ {e ctx c t r}, (run g depth e ctx c t).result? = some r → Derives g ctx (.expr e) c r
  skip : ∀ {ctx c t r}, (skip g depth ctx c t).result? = some r → Derives g ctx .gap c r
  again : ∀ {e ctx nodes c t r}, (again g depth e ctx nodes c t).result? = some r →
    ∃ more d, r = .matched (nodes ++ more) d ∧ Derives g ctx (.more e) c (.matched more d)

variable {depth : Nat}

theorem close_result? (x : R) (kind : RuleKind) (m : Mark) (o : Outcome R) :
    (close x kind ctx c m o).result? = o.result?.map fun
      | .matched nodes d => .matched (kind.enclose x ctx c d nodes) d
      | .refused => .refused := by
  cases o with
  | matched nodes d t =>
    by_cases shown : (kind.outer ctx.spacing != .solid && ctx.looking == .nowhere) = true
    · simp only [close, RuleKind.enclose, shown, if_true]
      rfl
    · simp only [close, RuleKind.enclose, shown]
      rfl
  | refused t =>
    simp only [close]
    split <;> rfl
  | exhausted => rfl

theorem derives_skip (derived : Derived g depth)
    (done : (skip g (depth + 1) ctx c t).result? = some r) :
    Derives g ctx .gap c r := by
  rw [skip] at done
  split at done
  · rename_i free
    exact .gap free (derived.run done)
  · rename_i bound
    cases done
    exact .noGap bound

theorem derives_again {e : Peg R} {nodes : List (Node R)} (derived : Derived g depth)
    (done : (again g (depth + 1) e ctx nodes c t).result? = some r) :
    ∃ more d, r = .matched (nodes ++ more) d ∧ Derives g ctx (.more e) c (.matched more d) := by
  rw [again] at done
  split at done
  · rename_i gap d t skipped
    have before : Derives g ctx .gap c (.matched gap d) := derived.skip (by rw [skipped]; rfl)
    split at done
    · rename_i first f t matched
      have here : Derives g ctx (.expr e) d (.matched first f) := derived.run (by rw [matched]; rfl)
      obtain ⟨rest, h, same, later⟩ := derived.again done
      exact ⟨first ++ rest, h, by rw [same, List.append_assoc], .more before here later⟩
    · rename_i t refused
      cases done
      exact ⟨[], c, by simp, .moreEnd before (derived.run (by rw [refused]; rfl))⟩
    · cases done
  · rename_i t refused
    cases done
    exact ⟨[], c, by simp, .moreGap (derived.skip (by rw [refused]; rfl))⟩
  · cases done

theorem derives_seq {a b : Peg R} (derived : Derived g depth)
    (done : (run g (depth + 1) (.seq a b) ctx c t).result? = some r) :
    Derives g ctx (.expr (.seq a b)) c r := by
  rw [run] at done
  split at done
  · rename_i first d t matched
    have here : Derives g ctx (.expr a) c (.matched first d) := derived.run (by rw [matched]; rfl)
    split at done
    · rename_i gap e t skipped
      have between : Derives g ctx .gap d (.matched gap e) := derived.skip (by rw [skipped]; rfl)
      split at done
      · rename_i second f t matched
        cases done
        exact .seq here between (derived.run (by rw [matched]; rfl))
      · rename_i failed other
        have there := derived.run done
        cases r with
        | refused => exact .seqSecond here between there
        | matched nodes f =>
          cases ran : run g depth b ctx e t with
          | matched nodes f t => exact absurd ran (other nodes f t)
          | refused | exhausted => simp [ran, Outcome.result?] at done
    · rename_i failed other
      have there := derived.skip done
      cases r with
      | refused => exact .seqGap here there
      | matched nodes e =>
        cases ran : skip g depth ctx d t with
        | matched nodes e t => exact absurd ran (other nodes e t)
        | refused | exhausted => simp [ran, Outcome.result?] at done
  · rename_i failed other
    have there := derived.run done
    cases r with
    | refused => exact .seqFirst there
    | matched nodes d =>
      cases ran : run g depth a ctx c t with
      | matched nodes d t => exact absurd ran (other nodes d t)
      | refused | exhausted => simp [ran, Outcome.result?] at done

theorem derives_rule {x : R} (derived : Derived g depth)
    (done : (run g (depth + 1) (.rule x) ctx c t).result? = some r) :
    Derives g ctx (.expr (.rule x)) c r := by
  rw [run] at done
  split at done
  · rename_i hidden
    exact .silent hidden (derived.run done)
  · rename_i given
    rw [close_result?, Option.map_eq_some_iff] at done
    obtain ⟨inner, ran, same⟩ := done
    have body := derived.run ran
    cases inner with
    | matched nodes d =>
      subst same
      exact .rule given body
    | refused =>
      subst same
      exact .noRule given body

theorem derives_run (derived : Derived g depth) (e : Peg R)
    (done : (run g (depth + 1) e ctx c t).result? = some r) : Derives g ctx (.expr e) c r := by
  cases e with
  | text cs =>
    rw [run] at done
    split at done
    · cases done
      exact .text ‹_›
    · cases done
      exact .noText ‹_›
  | char k =>
    obtain ⟨rest, pos⟩ := c
    rw [run] at done
    cases rest with
    | nil =>
      cases done
      exact .charEnd
    | cons x rest =>
      simp only at done
      split at done
      · cases done
        exact .char ‹_›
      · cases done
        exact .noChar (Bool.not_eq_true _ ▸ ‹¬k.holds x = true›)
  | start =>
    rw [run] at done
    split at done
    · cases done
      exact .start ‹_›
    · cases done
      exact .noStart ‹_›
  | finish =>
    rw [run] at done
    split at done
    · cases done
      exact .finish (List.isEmpty_iff.1 ‹_›)
    · cases done
      exact .noFinish fun empty => by simp_all
  | opt e =>
    rw [run] at done
    split at done
    · rename_i t refused
      cases done
      exact .optNone (derived.run (by rw [refused]; rfl))
    · rename_i other
      have body := derived.run done
      cases r with
      | matched nodes d => exact .opt body
      | refused =>
        cases ran : run g depth e ctx c t with
        | refused t => exact absurd ran (other t)
        | matched | exhausted => simp [ran, Outcome.result?] at done
  | not e =>
    rw [run] at done
    split at done
    · rename_i nodes d t matched
      cases done
      exact .notNone (derived.run (by rw [Context.flipped, matched]; rfl))
    · rename_i t refused
      cases done
      exact .not (derived.run (by rw [Context.flipped, refused]; rfl))
    · cases done
  | alt a b =>
    rw [run] at done
    split at done
    · rename_i t refused
      exact .right (derived.run (by rw [refused]; rfl)) (derived.run done)
    · rename_i other
      have first := derived.run done
      cases r with
      | matched nodes d => exact .left first
      | refused =>
        cases ran : run g depth a ctx c t with
        | refused t => exact absurd ran (other t)
        | matched | exhausted => simp [ran, Outcome.result?] at done
  | seq a b => exact derives_seq derived done
  | star e =>
    rw [run] at done
    split at done
    · rename_i nodes d t matched
      obtain ⟨rest, f, same, later⟩ := derived.again done
      subst same
      exact .star (derived.run (by rw [matched]; rfl)) later
    · rename_i t refused
      cases done
      exact .starNone (derived.run (by rw [refused]; rfl))
    · cases done
  | rule x => exact derives_rule derived done

theorem derived (g : RuleSet R) (depth : Nat) : Derived g depth := by
  induction depth with
  | zero =>
    refine ⟨fun done => ?_, fun done => ?_, fun done => ?_⟩
    · cases done
    · cases done
    · cases done
  | succ depth ih => exact ⟨derives_run ih _, derives_skip ih, derives_again ih⟩

/-- What the matcher gives is derived, whatever the depth and the trail. -/
theorem run_derives {e : Peg R} (done : (run g depth e ctx c t).result? = some r) :
    Derives g ctx (.expr e) c r :=
  (derived g depth).run done

end RuleSet

end Scriptlet.Grammar
