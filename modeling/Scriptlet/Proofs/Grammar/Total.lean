import Scriptlet.Grammar.Rules
import Scriptlet.Proofs.Grammar.Match

/-!
The matcher comes to an end.

Between two characters only finitely many rules are entered one inside the other, since no rule
leads back to itself without a character being read, and nothing is repeated that can match nothing.
So a depth in proportion to the length of the text suffices. Main statement: `parse_ends`.
-/

namespace Scriptlet.Grammar

variable {R : Type}

/-! ### What can match nothing -/

namespace Peg

/-- Whether an expression can match without a character being read, given which rules can. -/
def nullable (empty : R → Bool) : Peg R → Bool
  | .text cs => cs.isEmpty
  | .char _ => false
  | .rule r => empty r
  | .seq a b => a.nullable empty && b.nullable empty
  | .alt a b => a.nullable empty || b.nullable empty
  | .star _ | .opt _ | .not _ | .start | .finish => true

end Peg

variable {g : RuleSet R} {ctx : Context} {c d : Cursor} {empty : R → Bool}

theorem length_stripText? {cs : List Char} {c d : Cursor} (stripped : stripText? cs c = some d) :
    d.rest.length + cs.length = c.rest.length := by
  induction cs generalizing c with
  | nil =>
    cases stripped
    rfl
  | cons x xs ih =>
    unfold stripText? at stripped
    split at stripped
    · rename_i y rest ahead
      split at stripped
      · have := ih stripped
        rw [ahead, List.length_cons, List.length_cons, ← this]
        omega
      · cases stripped
    · cases stripped

/-- Whether a job can be done without a character being read. -/
def Job.nullable (empty : R → Bool) : Job R → Bool
  | .expr e => e.nullable empty
  | .gap | .more _ => true

/-- A match reads on, and at least a character where it cannot match nothing. -/
theorem Derives.reads {j : Job R} {r : Result R}
    (honest : ∀ r, (g.define r).body.nullable empty = true → empty r = true)
    (derives : Derives g ctx j c r) {nodes : List (Node R)} (matched : r = .matched nodes d) :
    d.rest.length ≤ c.rest.length ∧ (j.nullable empty = false → d.rest.length < c.rest.length) := by
  induction derives generalizing nodes d with
  | @text ctx cs c d stripped =>
    cases matched
    have length := length_stripText? stripped
    refine ⟨by omega, fun full => ?_⟩
    have : cs.length ≠ 0 := by simpa [Job.nullable, Peg.nullable] using full
    omega
  | char => cases matched; simp
  | start | finish => cases matched; simp [Job.nullable, Peg.nullable]
  | opt _ ih =>
    cases matched
    exact ⟨(ih rfl).1, by simp [Job.nullable, Peg.nullable]⟩
  | optNone | not | starNone | noGap | moreEnd | moreGap =>
    cases matched
    simp [Job.nullable, Peg.nullable]
  | left _ ih =>
    cases matched
    refine ⟨(ih rfl).1, fun full => (ih rfl).2 ?_⟩
    simp only [Job.nullable, Peg.nullable, Bool.or_eq_false_iff] at full ⊢
    exact full.1
  | right _ _ _ ih =>
    refine ⟨(ih matched).1, fun full => (ih matched).2 ?_⟩
    simp only [Job.nullable, Peg.nullable, Bool.or_eq_false_iff] at full ⊢
    exact full.2
  | seq _ _ _ first gap second =>
    cases matched
    have one := first rfl
    have two := gap rfl
    have three := second rfl
    refine ⟨by omega, fun full => ?_⟩
    simp only [Job.nullable, Peg.nullable, Bool.and_eq_false_iff] at full one three
    rcases full with full | full
    · have := one.2 full
      omega
    · have := three.2 full
      omega
  | star _ _ first rest =>
    cases matched
    have one := first rfl
    have two := rest rfl
    exact ⟨by omega, by simp [Job.nullable, Peg.nullable]⟩
  | silent _ _ ih =>
    refine ⟨(ih matched).1, fun full => (ih matched).2 ?_⟩
    exact Bool.eq_false_iff.2 fun null => Bool.eq_false_iff.1 full (honest _ null)
  | rule _ _ ih =>
    cases matched
    refine ⟨(ih rfl).1, fun full => (ih rfl).2 ?_⟩
    exact Bool.eq_false_iff.2 fun null => Bool.eq_false_iff.1 full (honest _ null)
  | gap _ _ ih => exact ⟨(ih matched).1, by simp [Job.nullable]⟩
  | more _ _ _ gap first rest =>
    cases matched
    have one := gap rfl
    have two := first rfl
    have three := rest rfl
    exact ⟨by omega, by simp [Job.nullable]⟩
  | noText | noChar | charEnd | noStart | noFinish | notNone | seqFirst | seqGap | seqSecond |
    noRule =>
    cases matched

/-! ### How deep a match goes -/

/-- What is known of the rules of a grammar: which can match nothing, and how deep they go before a
character is read. -/
structure Measure (R : Type) where
  empty : R → Bool
  rank : R → Nat

namespace Measure

/-- How deep an expression goes before a character is read, where layout takes `gap`. -/
def reach (m : Measure R) (gap : Nat) : Peg R → Nat
  | .text _ | .char _ | .start | .finish => 1
  | .rule r => m.rank r
  | .opt e | .not e | .star e => m.reach gap e + 1
  | .alt a b => max (m.reach gap a) (m.reach gap b) + 1
  | .seq a b =>
    max (m.reach gap a) (if a.nullable m.empty then max gap (m.reach gap b) else 0) + 1

/-- How deep layout goes. Nothing is skipped inside of it. -/
def gap (m : Measure R) (g : RuleSet R) : Nat :=
  m.reach 1 g.layout + 1

/-- Whether all that may follow a character fits into the depth per character, and whatever is
repeated reads a character. -/
def fits (m : Measure R) (gap : Nat) : Peg R → Bool
  | .text _ | .char _ | .rule _ | .start | .finish => true
  | .opt e | .not e => m.fits gap e
  | .star e =>
    m.fits gap e && !e.nullable m.empty &&
      decide (max gap (m.reach gap e) + 1 ≤ RuleSet.depthPerChar)
  | .alt a b => m.fits gap a && m.fits gap b
  | .seq a b =>
    m.fits gap a && m.fits gap b &&
      decide (max gap (m.reach gap b) ≤ RuleSet.depthPerChar)

/-- What is known of the rules is right. -/
structure Bounds (m : Measure R) (g : RuleSet R) : Prop where
  honest : ∀ r, (g.define r).body.nullable m.empty = true → m.empty r = true
  layout : m.fits 1 g.layout = true
  fits : ∀ r, m.fits (m.gap g) (g.define r).body = true
  reach : ∀ r, m.reach (m.gap g) (g.define r).body < m.rank r

end Measure

namespace RuleSet

variable {m : Measure R} {gap depth : Nat} {t : Trail R} {e : Peg R}

/-- The depth that is left at a place. -/
def Leaves (depth : Nat) (c : Cursor) (needed : Nat) : Prop :=
  depthPerChar * c.rest.length + needed ≤ depth

theorem Leaves.of_read {needed more : Nat} (leaves : Leaves (depth + 1) c (needed + 1))
    (reads : d.rest.length < c.rest.length) (small : more ≤ depthPerChar) :
    Leaves depth d more := by
  have := Nat.mul_le_mul_left depthPerChar (Nat.succ_le_of_lt reads)
  unfold Leaves at *
  rw [Nat.mul_succ] at this
  omega

theorem Leaves.of_le {needed more : Nat} (leaves : Leaves (depth + 1) c (needed + 1))
    (reads : d.rest.length ≤ c.rest.length) (small : more ≤ needed) : Leaves depth d more := by
  have := Nat.mul_le_mul_left depthPerChar reads
  unfold Leaves at *
  omega

/-- Matches within a depth come to an end where the depth suffices. -/
structure Ends (g : RuleSet R) (m : Measure R) (depth : Nat) : Prop where
  run : ∀ {gap e ctx c t}, m.fits gap e = true → 0 < gap →
    (ctx.spacing = .free → m.gap g ≤ gap) → Leaves depth c (m.reach gap e) →
    run g depth e ctx c t ≠ .exhausted
  skip : ∀ {gap ctx c t}, 0 < gap → (ctx.spacing = .free → m.gap g ≤ gap) → Leaves depth c gap →
    skip g depth ctx c t ≠ .exhausted
  again : ∀ {gap e ctx nodes c t}, m.fits gap e = true → 0 < gap →
    (ctx.spacing = .free → m.gap g ≤ gap) → e.nullable m.empty = false →
    Leaves depth c (max gap (m.reach gap e) + 1) → again g depth e ctx nodes c t ≠ .exhausted

section Steps

variable (bounds : m.Bounds g) (ends : Ends g m depth) (positive : 0 < gap)
  (free : ctx.spacing = .free → m.gap g ≤ gap)

include bounds ends free

theorem skip_ends (leaves : Leaves (depth + 1) c gap) :
    skip g (depth + 1) ctx c t ≠ .exhausted := by
  rw [skip]
  split
  · rename_i skips
    refine ends.run bounds.layout Nat.one_pos (fun tight => by cases tight) ?_
    have wide : m.reach 1 g.layout + 1 ≤ gap := free skips
    unfold Leaves at *
    omega
  · simp

include positive

theorem again_ends {nodes : List (Node R)} (fits : m.fits gap e = true)
    (full : e.nullable m.empty = false)
    (leaves : Leaves (depth + 1) c (max gap (m.reach gap e) + 1)) :
    again g (depth + 1) e ctx nodes c t ≠ .exhausted := by
  rw [again]
  have ended := ends.skip (t := t) positive free (leaves.of_le (Nat.le_refl _) (Nat.le_max_left ..))
  split
  · rename_i unseen d t skipped
    have before := (Derives.reads bounds.honest
      ((derived g depth).skip (by rw [skipped]; rfl)) rfl).1
    have ended := ends.run (t := t) fits positive free (leaves.of_le before (Nat.le_max_right ..))
    split
    · rename_i first f t matched
      have reads := (Derives.reads bounds.honest (run_derives (by rw [matched]; rfl)) rfl).2 full
      refine ends.again fits positive free full ?_
      have := Nat.mul_le_mul_left depthPerChar (Nat.succ_le_of_lt (Nat.lt_of_lt_of_le reads before))
      have : 0 < depthPerChar := by decide
      unfold Leaves at *
      rw [Nat.mul_succ] at *
      omega
    · simp
    · exact absurd ‹_› ended
  · simp
  · exact absurd ‹_› ended

theorem seq_ends {a b : Peg R} (fits : m.fits gap (.seq a b) = true)
    (leaves : Leaves (depth + 1) c (m.reach gap (.seq a b))) :
    run g (depth + 1) (.seq a b) ctx c t ≠ .exhausted := by
  simp only [Measure.fits, Bool.and_eq_true, decide_eq_true_eq] at fits
  obtain ⟨⟨fitsA, fitsB⟩, small⟩ := fits
  rw [Measure.reach] at leaves
  rw [run]
  have ended := ends.run (t := t) fitsA positive free
    (leaves.of_le (Nat.le_refl _) (Nat.le_max_left ..))
  split
  · rename_i first d t matched
    have reads := Derives.reads bounds.honest (run_derives (by rw [matched]; rfl)) rfl
    -- what follows the first part is at the same place only if that part can match nothing
    have later {needed : Nat} {e : Cursor} (part : needed ≤ max gap (m.reach gap b))
        (behind : e.rest.length ≤ d.rest.length) : Leaves depth e needed := by
      cases null : a.nullable m.empty with
      | true =>
        rw [null, if_pos rfl] at leaves
        exact leaves.of_le (Nat.le_trans behind reads.1)
          (Nat.le_trans part (Nat.le_max_right ..))
      | false =>
        exact leaves.of_read (Nat.lt_of_le_of_lt behind (reads.2 null)) (Nat.le_trans part small)
    have ended := ends.skip (t := t) positive free (later (Nat.le_max_left ..) (Nat.le_refl _))
    split
    · rename_i unseen e t skipped
      have behind := (Derives.reads bounds.honest
        ((derived g depth).skip (by rw [skipped]; rfl)) rfl).1
      have ended := ends.run (t := t) fitsB positive free (later (Nat.le_max_right ..) behind)
      split
      · simp
      · exact ended
    · exact ended
  · exact ended

omit positive free in
theorem rule_ends {r : R}
    (leaves : Leaves (depth + 1) c (m.reach gap (.rule r))) :
    run g (depth + 1) (.rule r) ctx c t ≠ .exhausted := by
  have here : Leaves depth c (m.reach (m.gap g) (g.define r).body) := by
    have := bounds.reach r
    rw [Measure.reach] at leaves
    unfold Leaves at *
    omega
  have gap_pos : 0 < m.gap g := Nat.succ_pos _
  rw [run]
  split
  · exact ends.run (bounds.fits r) gap_pos (fun _ => Nat.le_refl _) here
  · have ended : run g depth (g.define r).body (ctx.within (g.define r).kind) c t ≠ .exhausted :=
      ends.run (bounds.fits r) gap_pos (fun _ => Nat.le_refl _) here
    intro exhausted
    refine ended ?_
    have results := congrArg Outcome.result? exhausted
    rw [close_result?] at results
    change (run g depth (g.define r).body (ctx.within (g.define r).kind) c t).result?.map _ = none
      at results
    rw [Option.map_eq_none_iff] at results
    cases ran : run g depth (g.define r).body (ctx.within (g.define r).kind) c t with
    | exhausted => rfl
    | matched | refused => simp [ran, Outcome.result?] at results

theorem run_ends (fits : m.fits gap e = true)
    (leaves : Leaves (depth + 1) c (m.reach gap e)) : run g (depth + 1) e ctx c t ≠ .exhausted := by
  cases e with
  | text | char | start | finish =>
    rw [run]
    repeat' split
    all_goals simp
  | opt e =>
    rw [run]
    have ended :=
      ends.run (e := e) (t := t) fits positive free (leaves.of_le (Nat.le_refl _) (Nat.le_refl _))
    split
    · simp
    · exact ended
  | not e =>
    rw [run]
    have ended : run g depth e ctx.flipped c t ≠ .exhausted :=
      ends.run (e := e) fits positive free (leaves.of_le (Nat.le_refl _) (Nat.le_refl _))
    split
    · simp
    · simp
    · exact absurd ‹_› ended
  | alt a b =>
    rw [run]
    rw [Measure.fits, Bool.and_eq_true] at fits
    have ended := ends.run (t := t) fits.1 positive free
      (leaves.of_le (Nat.le_refl _) (Nat.le_max_left ..))
    split
    · exact ends.run fits.2 positive free (leaves.of_le (Nat.le_refl _) (Nat.le_max_right ..))
    · exact ended
  | star e =>
    simp only [Measure.fits, Bool.and_eq_true, Bool.not_eq_true', decide_eq_true_eq] at fits
    obtain ⟨⟨fits, full⟩, small⟩ := fits
    rw [run]
    have ended :=
      ends.run (t := t) fits positive free (leaves.of_le (Nat.le_refl _) (Nat.le_refl _))
    split
    · rename_i nodes d t matched
      have reads := (Derives.reads bounds.honest (run_derives (by rw [matched]; rfl)) rfl).2 full
      exact ends.again fits positive free full (leaves.of_read reads small)
    · simp
    · exact absurd ‹_› ended
  | seq a b => exact seq_ends bounds ends positive free fits leaves
  | rule r => exact rule_ends bounds ends leaves

end Steps

theorem ends (bounds : m.Bounds g) (depth : Nat) : Ends g m depth := by
  induction depth with
  | zero =>
    -- nothing ends at depth zero, and no place asks for so little
    have never {c : Cursor} {needed : Nat} (some : 0 < needed) : ¬Leaves 0 c needed := by
      unfold Leaves
      omega
    have reach_pos (gap : Nat) (e : Peg R) : 0 < m.reach gap e := by
      cases e with
      | rule r => exact Nat.lt_of_le_of_lt (Nat.zero_le _) (bounds.reach r)
      | _ => simp [Measure.reach]
    refine ⟨fun _ _ _ leaves => ?_, fun positive _ leaves => ?_, fun _ _ _ _ leaves => ?_⟩
    · exact absurd leaves (never (reach_pos ..))
    · exact absurd leaves (never positive)
    · exact absurd leaves (never (Nat.succ_pos _))
  | succ depth ih =>
    exact ⟨fun fits positive free leaves => run_ends bounds ih positive free fits leaves,
      fun _ free leaves => skip_ends bounds ih free leaves,
      fun fits positive free full leaves => again_ends bounds ih positive free fits full leaves⟩

/-- Matching a rule against a whole text comes to an end. -/
theorem parse_ends (bounds : m.Bounds g) {r : R} (small : m.rank r ≤ depthPerChar) (text : String) :
    g.parse r text ≠ .exhausted := by
  have fits : m.fits (m.gap g) (.rule r) = true := rfl
  refine (ends bounds _).run fits (Nat.succ_pos _) (fun _ => Nat.le_refl _) ?_
  unfold Leaves
  simp only [Measure.reach, Nat.mul_add, Nat.mul_one]
  omega

end RuleSet

/-! ### The grammar of programs -/

/-- The rules that can match nothing. -/
def canBeEmpty : Rule → Bool
  | .program | .endOfInput | .doubleChars | .singleChars | .arraySlot | .arrayBindingSlot => true
  | _ => false

/-- How many rules are entered one inside the other before a character is read. -/
def level : Rule → Nat
  | .program => 14
  | .statement => 13
  | .forInit | .forTest | .forUpdate | .expressionStatement => 12
  | .expression | .arraySlot | .arrowBody => 11
  | .assignment => 10
  | .conditional => 9
  | .binary => 8
  | .unary => 7
  | .update | .arrayBindingSlot | .objectBindingMember | .forEachLeft => 6
  | .leftHandSide | .objectMember | .arrowFunction | .bindingElement | .declarator => 5
  | .primary | .propertyAssignment | .method | .shorthand | .arrowParameters | .bindingTarget
  | .objectBindingProperty | .variableStatement => 4
  | .identifier | .propertyKey | .variableDeclaration | .forDeclaration => 3
  | .endOfInput | .keyword _ | .nameStart | .hexNumber | .decimalNumber | .exponent |
    .escape | .string
  | .template | .substitution | .assignOp _ | .infixOp _ | .unaryOp _ | .updateOp _ | .staticMember
  | .computedMember | .arguments | .spread | .parenthesized | .arrayLiteral | .objectLiteral
  | .computedKey | .parameters | .functionBody | .restElement | .arrayBinding | .objectBinding
  | .blockStatement | .emptyStatement => 1
  | _ => 2

/-- No body of a rule is deeper than 40. -/
def scriptMeasure : Measure Rule where
  empty := canBeEmpty
  rank r := 40 * level r

theorem symbol_ne_empty (op : InfixOp) : op.symbol ≠ "" := by
  rcases op with (op | _ | _ | _ | _ | _ | _ | _ | _ | _ | _) | op
  case binary.arith => cases op <;> decide
  case logical => cases op <;> decide
  all_goals decide

theorem gap_script : scriptMeasure.gap script = 6 := by
  decide +kernel

theorem bounds_script : scriptMeasure.Bounds script := by
  refine ⟨fun r => ?_, by decide +kernel, fun r => ?_, fun r => ?_⟩
  · cases r with
    | keyword k => cases k <;> decide +kernel
    | assignOp op =>
      cases op with
      | plain => decide +kernel
      | compound op | logical op => cases op <;> decide +kernel
    | infixOp op =>
      intro empty
      refine absurd ?_ (symbol_ne_empty op)
      simpa [script, define, lit, Peg.nullable] using empty
    | unaryOp op | updateOp op => cases op <;> decide +kernel
    | _ => decide +kernel
  · rw [gap_script]
    cases r with
    | keyword k => rfl
    | assignOp op => cases op <;> rfl
    | infixOp op | unaryOp op | updateOp op => rfl
    | _ => decide +kernel
  · rw [gap_script]
    cases r with
    | keyword k => cases k <;> decide +kernel
    | assignOp op =>
      cases op with
      | plain => decide +kernel
      | compound op | logical op => exact (show 1 < 40 by decide +kernel)
    | infixOp op | unaryOp op | updateOp op => exact (show 1 < 40 by decide +kernel)
    | _ => decide +kernel

end Scriptlet.Grammar
