import Scriptlet.Proofs.Grammar.Tracking

/-!
What is matched between brackets.

A match that lies in front of a closing bracket, and whatever is tried and refused on the way, reads
nothing of what stands behind the bracket. Main statement: `Derives.moved`.
-/

namespace Scriptlet.Grammar

open Relation

variable {ctx : Context} {c d : Cursor} {open_ open' outer goal : List Frame} {ρ τ ys : List Char}
  {y : Char}

namespace Lexer

/-! ### Steps in front of a bracket -/

/-- At the bracket, nothing else is open any more. -/
theorem Path.eq_of_here (path : Path (open_, y :: ys) (goal, y :: ys)) : open_ = goal :=
  congrArg Prod.fst (path.eq_of_length (Nat.le_refl _))

/-- Before the bracket there is a step. -/
theorem Path.step {x : Char} (path : Path (open_, x :: (ρ ++ y :: ys)) (goal, y :: ys)) :
    ∃ open' between, Lexer.step (open_, x :: (ρ ++ y :: ys)) = some (open', between ++ y :: ys) ∧
      Path (open', between ++ y :: ys) (goal, y :: ys) := by
  rcases path.cases_head with same | ⟨⟨open', cs⟩, stepped, rest⟩
  · have length := congrArg (fun s : State => s.2.length) same
    simp only [List.length_cons, List.length_append] at length
    omega
  · obtain ⟨between, rfl⟩ := (show Path (open', cs) _ from rest).suffix
    exact ⟨open', between, stepped, rest⟩

theorem layoutUnit_of_closed (closed : Closed τ) : layoutUnit τ = none := by
  cases τ with
  | nil => rfl
  | cons x rest =>
    have closing := closed x rest rfl
    simp only [closes, Bool.or_eq_true, beq_iff_eq] at closing
    rcases closing with (rfl | rfl) | rfl <;> rfl

section Bracket

variable (closing : closes y = true)

include closing

/-- Before the bracket every comment has an end. -/
theorem not_startsComment (code : inCode open_ = true)
    (path : Path (open_, ρ ++ y :: ys) (goal, y :: ys))
    (clean : layoutUnit (ρ ++ y :: ys) = none) : ¬StartsComment (ρ ++ y :: ys) := by
  rintro (⟨rest, ahead⟩ | block)
  · rw [← ahead] at clean
    cases clean
  · cases ρ with
    | nil =>
      obtain ⟨rest, ahead⟩ := block
      exact ne_of_closes closing (x := '/') rfl (List.cons.inj ahead).1.symm
    | cons x ρ =>
      obtain ⟨open', between, stepped, -⟩ := Path.step path
      have none : unit open_ (x :: (ρ ++ y :: ys)) = none := by
        rw [unit_of_inCode code]
        exact clean
      rw [step_of_turn none, turn_of_inCode code,
        if_pos (show ['/', '*'] <+: x :: (ρ ++ y :: ys) from block)] at stepped
      cases stepped

variable (closed : Closed τ) (code : inCode goal = true)

include closed code

/-- A step over what the innermost frame holds, before the bracket. -/
theorem unit_moved (path : Path (open_, ρ ++ y :: ys) (goal, y :: ys)) :
    unit open_ (ρ ++ y :: ys) = none ∧ unit open_ (ρ ++ τ) = none ∨
      ∃ ρ', unit open_ (ρ ++ y :: ys) = some (ρ' ++ y :: ys) ∧
      unit open_ (ρ ++ τ) = some (ρ' ++ τ) ∧
        Path (open_, ρ' ++ y :: ys) (goal, y :: ys) := by
  cases ρ with
  | nil =>
    cases path.eq_of_here
    rw [unit_of_inCode code]
    exact .inl ⟨layoutUnit_of_closed (closed_cons closing), layoutUnit_of_closed closed⟩
  | cons x ρ =>
    obtain ⟨open', between, stepped, onward⟩ := Path.step path
    cases read : unit open_ (x :: (ρ ++ y :: ys)) with
    | none =>
      rw [step_of_turn read] at stepped
      exact .inl ⟨read, unit_none_swap closing closed read (by simp [stepped])⟩
    | some rest =>
      rw [step_of_unit read] at stepped
      obtain ⟨rfl, rfl⟩ := Prod.mk.inj (Option.some.inj stepped)
      exact .inr ⟨between, read, unit_swap closing closed read, onward⟩

/-- All of what the innermost frame holds, before the bracket. -/
theorem exhaust_moved (path : Path (open_, ρ ++ y :: ys) (goal, y :: ys)) :
    ∃ ρ', (unit open_).exhaust (ρ ++ y :: ys) = ρ' ++ y :: ys ∧
    (unit open_).exhaust (ρ ++ τ) = ρ' ++ τ := by
  induction length : ρ.length using Nat.strongRecOn generalizing ρ with
  | ind n ih =>
    rcases unit_moved closing closed code path with ⟨none, none'⟩ | ⟨ρ', read, read', onward⟩
    · exact ⟨ρ, Step.exhaust_of_none none, Step.exhaust_of_none none'⟩
    · have shorter := (unit_suffix read).2
      simp only [List.length_append] at shorter
      obtain ⟨ρ'', all, all'⟩ := ih ρ'.length (by omega) onward rfl
      exact ⟨ρ'', (Step.exhaust_of_some read (unit_suffix read).1).trans all,
        (Step.exhaust_of_some read' (unit_suffix read').1).trans all'⟩

end Bracket

theorem after_head {x : Char} {rest : List Char} (read : after [] (x :: rest) = some open') :
    closes x = false := by
  rw [after.eq_def] at read
  simp only at read
  split at read
  · cases read
  · obtain ⟨between, turned, -⟩ := Option.bind_eq_some_iff.1 read
    refine Bool.eq_false_iff.2 fun closing => ?_
    simp only [closes, Bool.or_eq_true, beq_iff_eq] at closing
    rcases closing with (rfl | rfl) | rfl <;> cases turned

end Lexer

open Lexer

/-! ### Results -/

/-- The same result with something else at the end of the text. -/
def Moved (τ τ' : List Char) : Result Rule → Result Rule → Prop
  | .matched nodes d, .matched nodes' d' =>
    nodes = nodes' ∧ d.pos = d'.pos ∧ ∃ ρ, d.rest = ρ ++ τ ∧ d'.rest = ρ ++ τ'
  | .refused, .refused => True
  | _, _ => False

section Results

variable {τ' σ : List Char} {r r' : Result Rule} {j : Job Rule}

theorem Moved.of_matched {nodes : List (Node Rule)} (moved : Moved τ τ' (.matched nodes d) r) :
    ∃ ρ, d.rest = ρ ++ τ ∧ r = .matched nodes ⟨ρ ++ τ', d.pos⟩ := by
  cases r with
  | matched nodes' d' =>
    obtain ⟨rest', pos'⟩ := d'
    obtain ⟨rfl, rfl, ρ, rest, rfl⟩ := moved
    exact ⟨ρ, rest, rfl⟩
  | refused => cases moved

theorem Moved.of_refused (moved : Moved τ τ' .refused r) : r = .refused := by
  cases r with
  | matched => cases moved
  | refused => rfl

theorem refused_of_moved
    (moved : ∃ r', Derives script ctx j ⟨ρ ++ σ, c.pos⟩ r' ∧ Moved τ σ .refused r') :
    Derives script ctx j ⟨ρ ++ σ, c.pos⟩ .refused := by
  obtain ⟨r', derives, moved⟩ := moved
  cases moved.of_refused
  exact derives

/-- What the text ahead decides, before the bracket. -/
theorem Decides.moved {e : Peg Rule} {f : Step} (decides : Decides ctx e f)
    (ahead : c.rest = ρ ++ τ)
    (same : f (ρ ++ τ) = none ∧ f (ρ ++ σ) = none ∨
      ∃ ρ', f (ρ ++ τ) = some (ρ' ++ τ) ∧ f (ρ ++ σ) = some (ρ' ++ σ))
    (derives : Derives script ctx (.expr e) c r)
    (derives' : Derives script ctx (.expr e) ⟨ρ ++ σ, c.pos⟩ r') :
    Moved τ σ r r' := by
  cases r with
  | refused =>
    cases r' with
    | refused => trivial
    | matched nodes' d' =>
      have none := decides.refused derives
      have read := (decides.matched derives').2
      rw [ahead] at none
      rcases same with ⟨-, none'⟩ | ⟨ρ', some, -⟩
      · cases none'.symm.trans read
      · cases none.symm.trans some
  | matched nodes d =>
    obtain ⟨rfl, read⟩ := decides.matched derives
    rw [ahead] at read
    rcases same with ⟨none, -⟩ | ⟨ρ', some, some'⟩
    · cases none.symm.trans read
    · cases r' with
      | refused => cases some'.symm.trans (decides.refused derives')
      | matched nodes' d' =>
        obtain ⟨rfl, read'⟩ := decides.matched derives'
        have rest : ρ' ++ τ = d.rest := Option.some.inj (some.symm.trans read)
        have rest' : ρ' ++ σ = d'.rest := Option.some.inj (some'.symm.trans read')
        obtain ⟨cs, whole, pos⟩ := derives.advances
        obtain ⟨cs', whole', pos'⟩ := derives'.advances
        have length : cs = cs' := by
          rw [ahead, ← rest, ← List.append_assoc] at whole
          simp only [← rest', ← List.append_assoc] at whole'
          exact List.append_cancel_right
            ((List.append_cancel_right whole).symm.trans (List.append_cancel_right whole'))
        exact ⟨rfl, by rw [pos, pos', length], ρ', rest.symm, rest'.symm⟩

end Results

/-! ### Words before the bracket -/

/-- Nothing is open at the bracket besides what is open around it. -/
theorem nil_of_here (path : Path (open_ ++ outer, y :: ys) (goal, y :: ys))
    (inside : goal <:+ outer) :
    open_ = [] ∧ outer = goal := by
  have same := path.eq_of_here
  have length := inside.length_le
  rw [← same, List.length_append] at length
  have none : open_ = [] := List.length_eq_zero_iff.1 (by omega)
  subst none
  exact ⟨rfl, same⟩

/-- A literal ends before the bracket. -/
theorem prefix_append_iff {cs σ : List Char} {s : Spacing} (closed : Closed σ)
    (path : Path (open_ ++ outer, ρ ++ y :: ys) (goal, y :: ys)) (inside : goal <:+ outer)
    (tracked : track s open_ (.text cs) = some open') : cs <+: ρ ++ σ ↔ cs <+: ρ := by
  have tail : cs.tail.any closes = false := by
    rw [track_text] at tracked
    split at tracked
    next slash =>
      subst slash
      rfl
    next =>
      split at tracked
      · cases tracked
      next none => exact Bool.eq_false_iff.2 none
  by_cases ahead : ρ = []
  · subst ahead
    obtain ⟨rfl, rfl⟩ := nil_of_here path inside
    cases cs with
    | nil => simp
    | cons x cs =>
      simp only [List.prefix_nil, List.nil_append, reduceCtorEq, iff_false]
      rintro ⟨rest, same⟩
      have closing := closed x (cs ++ rest) same.symm
      rw [track_text] at tracked
      split at tracked
      next slash =>
        cases slash
        cases closing
      next =>
        split at tracked
        · cases tracked
        · rw [after_head tracked] at closing
          cases closing
  · exact closed.prefix_append_iff ahead tail

/-- A literal before the bracket. -/
theorem text_moved (closing : closes y = true) (closed : Closed τ) {cs : List Char}
    {r : Result Rule}
    (ahead : c.rest = ρ ++ τ) (path : Path (open_ ++ outer, ρ ++ y :: ys) (goal, y :: ys))
    (inside : goal <:+ outer) (tracked : track ctx.spacing open_ (.text cs) = some open')
    (derives : Derives script ctx (.expr (.text cs)) c r) :
    ∃ r', Derives script ctx (.expr (.text cs)) ⟨ρ ++ y :: ys, c.pos⟩ r' ∧
    Moved τ (y :: ys) r r' := by
  obtain ⟨r', derives'⟩ : ∃ r', Derives script ctx (.expr (.text cs)) ⟨ρ ++ y :: ys, c.pos⟩ r' := by
    cases stripped : stripText? cs ⟨ρ ++ y :: ys, c.pos⟩ with
    | none => exact ⟨_, .noText stripped⟩
    | some => exact ⟨_, .text stripped⟩
  refine ⟨r', derives', (Decides.text cs).moved ahead ?_ derives derives'⟩
  have here := prefix_append_iff closed path inside tracked
  have here' := prefix_append_iff (closed_cons closing : Closed (y :: ys)) path inside tracked
  unfold Step.text
  by_cases starts : cs <+: ρ
  · obtain ⟨rest, rfl⟩ := starts
    refine .inr ⟨rest, ?_, ?_⟩ <;> simp
  · exact .inl ⟨if_neg (mt here.1 starts), if_neg (mt here'.1 starts)⟩

/-- A letter or digit before the bracket. -/
theorem char_moved (closing : closes y = true) (closed : Closed τ) {k : CharClass} {r : Result Rule}
    (some : k ≠ .any) (word : k ≠ .blank) (ahead : c.rest = ρ ++ τ)
    (derives : Derives script ctx (.expr (.char k)) c r) :
    ∃ r', Derives script ctx (.expr (.char k)) ⟨ρ ++ y :: ys, c.pos⟩ r' ∧
    Moved τ (y :: ys) r r' := by
  obtain ⟨r', derives'⟩ : ∃ r', Derives script ctx (.expr (.char k)) ⟨ρ ++ y :: ys, c.pos⟩ r' := by
    cases ρ with
    | nil => cases holds : k.holds y with
      | false => exact ⟨_, .noChar holds⟩
      | true => exact ⟨_, .char holds⟩
    | cons x ρ => cases holds : k.holds x with
      | false => exact ⟨_, .noChar holds⟩
      | true => exact ⟨_, .char holds⟩
  refine ⟨r', derives', (Decides.char k).moved ahead ?_ derives derives'⟩
  have none {σ : List Char} (closed : Closed σ) : Step.char k σ = none := by
    cases σ with
    | nil => rfl
    | cons x rest =>
      refine if_neg fun holds => ?_
      have apart := (class_apart some word holds).2
      have closes := closed x rest rfl
      simp only [Lexer.closes, Bool.or_eq_true, beq_iff_eq] at closes
      rcases closes with (rfl | rfl) | rfl <;> simp at apart
  cases ρ with
  | nil => exact .inl ⟨none closed, none (closed_cons closing)⟩
  | cons x ρ =>
    by_cases holds : k.holds x = true
    · exact .inr ⟨ρ, if_pos holds, if_pos holds⟩
    · exact .inl ⟨if_neg holds, if_neg holds⟩

theorem not_refused_gap : ¬Derives script ctx .gap c .refused := by
  intro derives
  cases derives with
  | gap free layout => cases (Derives.gap free layout).unique (derives_skip free c)

/-- Layout before the bracket. -/
theorem gap_moved (closing : closes y = true) (closed : Closed τ) {r : Result Rule}
    (code : inCode goal = true)
    (ahead : c.rest = ρ ++ τ) (path : Path (open_, ρ ++ y :: ys) (goal, y :: ys))
    (words : ctx.spacing = .free → inCode open_ = true) (derives : Derives script ctx .gap c r) :
    ∃ r', Derives script ctx .gap ⟨ρ ++ y :: ys, c.pos⟩ r' ∧ Moved τ (y :: ys) r r' := by
  by_cases free : ctx.spacing = .free
  · obtain ⟨ρ', all, all'⟩ := exhaust_moved closing closed code path
    rw [unit_of_inCode (words free)] at all all'
    refine ⟨_, derives_skip free _, ?_⟩
    cases derives.unique (derives_skip free c)
    refine ⟨rfl, ?_, ρ', ?_, all⟩
    · simp only [Cursor.skip, ahead, clean, all, all', bytes_append]
      omega
    · rw [Cursor.skip, ahead]
      exact all'
  · cases derives with
    | gap free' => exact absurd free' free
    | noGap => exact ⟨_, .noGap free, rfl, rfl, ρ, ahead, rfl⟩

/-- What a rule gives before the bracket. -/
theorem enclose_moved {ρ' σ : List Char} (kind : RuleKind) (r : Rule) (nodes : List (Node Rule))
    (advances : c.Advances d) (ahead : c.rest = ρ ++ τ) (rest : d.rest = ρ' ++ τ) :
    kind.enclose r ctx ⟨ρ ++ σ, c.pos⟩ ⟨ρ' ++ σ, d.pos⟩ nodes = kind.enclose r ctx c d nodes := by
  obtain ⟨cs, whole, pos⟩ := advances
  rw [ahead, rest, ← List.append_assoc] at whole
  obtain rfl := List.append_cancel_right whole
  have between : d.pos - c.pos = bytes cs := by omega
  simp only [RuleKind.enclose, between, ahead, List.append_assoc, takeBytes_append]

/-- The characters of a string or a template before the bracket. -/
theorem textual_moved (closing : closes y = true) (closed : Closed τ) {r : Rule}
    {there above : List Frame}
    {result : Result Rule} (code : inCode goal = true) (entered : entry r = some there)
    (textual : isTextual r = true) (ahead : c.rest = ρ ++ τ)
    (path : Path (there ++ above, ρ ++ y :: ys) (goal, y :: ys))
    (derives : Derives script ctx (.expr (.rule r)) c result) :
    ∃ r', Derives script ctx (.expr (.rule r)) ⟨ρ ++ y :: ys, c.pos⟩ r' ∧
    Moved τ (y :: ys) result r' := by
  obtain ⟨kind, f, decides, reads⟩ :=
    decides_textual entered textual (show (ctx.within .token).spacing ≠ .free from nofun) above
  have same : f (ρ ++ τ) = none ∧ f (ρ ++ y :: ys) = none ∨
      ∃ ρ', f (ρ ++ τ) = some (ρ' ++ τ) ∧ f (ρ ++ y :: ys) = some (ρ' ++ y :: ys) := by
    rcases reads with rfl | rfl
    · obtain ⟨ρ', all, all'⟩ := exhaust_moved closing closed code path
      exact .inr ⟨ρ', congrArg some all', congrArg some all⟩
    · rcases unit_moved closing closed code path with ⟨none, none'⟩ | ⟨ρ', read, read', onward⟩
      · exact .inl ⟨by simp [none'], by simp [none]⟩
      · obtain ⟨ρ'', all, all'⟩ := exhaust_moved closing closed code onward
        exact .inr ⟨ρ'', by simp [read', all'], by simp [read, all]⟩
  obtain ⟨r', derives'⟩ := exists_derives_rule r ctx ⟨ρ ++ y :: ys, c.pos⟩
  refine ⟨r', derives', ?_⟩
  have given : (script.define r).kind ≠ .silent := by
    rw [kind]
    nofun
  cases derives with
  | silent hidden => exact absurd hidden given
  | noRule _ body =>
    rw [kind] at body
    cases derives' with
    | silent hidden => exact absurd hidden given
    | noRule => trivial
    | rule _ body' =>
      rw [kind] at body'
      cases decides.moved ahead same body body'
  | rule _ body =>
    have body₀ := body
    rw [kind] at body
    cases derives' with
    | silent hidden => exact absurd hidden given
    | noRule _ body' =>
      rw [kind] at body'
      cases decides.moved ahead same body body'
    | rule _ body' =>
      rw [kind] at body'
      obtain ⟨ρ', rest, same⟩ := (decides.moved ahead same body body').of_matched
      cases same
      exact ⟨(enclose_moved _ r _ body₀.advances ahead rest).symm, rfl, ρ', rest, rfl⟩

/-! ### Matches before the bracket -/

/-- After a match the bracket is still ahead. -/
theorem onward {j : Job Rule} {nodes : List (Node Rule)} (base : inCode outer = true)
    (path : Path (open_ ++ outer, ρ ++ y :: ys) (goal, y :: ys))
    (tracked : trackJob ctx.spacing open_ j = some open')
    (stands : Stands ctx.spacing open_ (ρ ++ y :: ys) j)
    (moved : ∃ r', Derives script ctx j ⟨ρ ++ y :: ys, c.pos⟩ r' ∧
      Moved τ (y :: ys) (.matched nodes d) r') :
    ∃ ρ', d.rest = ρ' ++ τ ∧
    Derives script ctx j ⟨ρ ++ y :: ys, c.pos⟩ (.matched nodes ⟨ρ' ++ y :: ys, d.pos⟩) ∧
      Path (open' ++ outer, ρ' ++ y :: ys) (goal, y :: ys) := by
  obtain ⟨r', derives, moved⟩ := moved
  obtain ⟨ρ', rest, rfl⟩ := moved.of_matched
  exact ⟨ρ', rest, derives, (derives.follows rfl base tracked stands).join path (by simp)⟩

/-- The first part of a sequence, before the bracket. -/
theorem stands_first {s : Spacing} {a b : Peg Rule} (closing : closes y = true)
    (base : inCode outer = true)
    (path : Path (open_ ++ outer, ρ ++ y :: ys) (goal, y :: ys))
    (tracked : track s open_ (.seq a b) = some open')
    (stands : Stands s open_ (ρ ++ y :: ys) (.expr (.seq a b))) :
    Stands s open_ (ρ ++ y :: ys) (.expr a) := by
  refine ⟨stands.1, fun own => ?_⟩
  obtain ⟨slash, -, middle, first, -⟩ := tracked_seq tracked
  obtain ⟨operation, free⟩ := slash own
  obtain ⟨rfl, rfl⟩ := eq_of_isOperation operation
  obtain ⟨-, -, _, above, ⟨⟩, rfl, code⟩ := tracked_rule first
  exact not_startsComment closing (inCode_append base code) path (stands.1 free code)

/-- Before a bracket that nothing inside has opened, what is matched stays the same whatever stands
in place of the bracket. -/
theorem Derives.moved {j : Job Rule} {r : Result Rule} (derives : Derives script ctx j c r)
    (closing : closes y = true) (closed : Closed τ) (code : inCode goal = true)
    (base : inCode outer = true) (inside : goal <:+ outer) (ahead : c.rest = ρ ++ τ)
    (path : Path (open_ ++ outer, ρ ++ y :: ys) (goal, y :: ys))
    (tracked : trackJob ctx.spacing open_ j = some open')
    (stands : Stands ctx.spacing open_ (ρ ++ y :: ys) j) :
    ∃ r', Derives script ctx j ⟨ρ ++ y :: ys, c.pos⟩ r' ∧ Moved τ (y :: ys) r r' := by
  induction derives generalizing open_ open' outer ρ with
  | text stripped => exact text_moved closing closed ahead path inside tracked (.text stripped)
  | noText stripped => exact text_moved closing closed ahead path inside tracked (.noText stripped)
  | @char _ k x rest pos holds =>
    rw [trackJob, track_char] at tracked
    split at tracked
    next checked =>
      simp only [Bool.and_eq_true, bne_iff_ne] at checked
      exact char_moved closing closed checked.1.2 checked.2 ahead (.char holds)
    next => cases tracked
  | @noChar _ k x rest pos fails =>
    rw [trackJob, track_char] at tracked
    split at tracked
    next checked =>
      simp only [Bool.and_eq_true, bne_iff_ne] at checked
      exact char_moved closing closed checked.1.2 checked.2 ahead (.noChar fails)
    next => cases tracked
  | @charEnd _ k pos =>
    rw [trackJob, track_char] at tracked
    split at tracked
    next checked =>
      simp only [Bool.and_eq_true, bne_iff_ne] at checked
      exact char_moved closing closed checked.1.2 checked.2 ahead .charEnd
    next => cases tracked
  | start | noStart | finish | noFinish => cases tracked
  | opt _ ih =>
    obtain ⟨rfl, slash, within⟩ := tracked_opt tracked
    obtain ⟨r', here, moved⟩ := ih base inside ahead path within (stands.inside slash)
    obtain ⟨ρ', rest, rfl⟩ := moved.of_matched
    exact ⟨_, .opt here, moved⟩
  | optNone _ ih =>
    obtain ⟨rfl, slash, within⟩ := tracked_opt tracked
    have none := refused_of_moved (ih base inside ahead path within (stands.inside slash))
    exact ⟨_, .optNone none, rfl, rfl, ρ, ahead, rfl⟩
  | not _ ih =>
    obtain ⟨rfl, slash, _, within⟩ := tracked_not tracked
    have none := refused_of_moved (ih base inside ahead path within (stands.inside slash))
    exact ⟨_, .not none, rfl, rfl, ρ, ahead, rfl⟩
  | notNone _ ih =>
    obtain ⟨rfl, slash, _, within⟩ := tracked_not tracked
    obtain ⟨r', here, moved⟩ := ih base inside ahead path within (stands.inside slash)
    obtain ⟨ρ', rest, rfl⟩ := moved.of_matched
    exact ⟨_, .notNone here, trivial⟩
  | left _ ih =>
    obtain ⟨r', here, moved⟩ := ih base inside ahead path (tracked_alt tracked).1 stands.left
    obtain ⟨ρ', rest, rfl⟩ := moved.of_matched
    exact ⟨_, .left here, moved⟩
  | right _ _ ih ih' =>
    have none := refused_of_moved (ih base inside ahead path (tracked_alt tracked).1 stands.left)
    obtain ⟨r', here, moved⟩ := ih' base inside ahead path (tracked_alt tracked).2 stands.right
    exact ⟨r', .right none here, moved⟩
  | seq _ _ _ ih ihGap ih' =>
    obtain ⟨-, slash, middle, first, gap, second⟩ := tracked_seq tracked
    have here := stands_first closing base path tracked stands
    obtain ⟨ρ₁, rest₁, one, path₁⟩ :=
      onward (j := .expr _) base path first here (ih base inside ahead path first here)
    obtain ⟨ρ₂, rest₂, skipped, path₂⟩ := onward base path₁ (track_gap gap) trivial
      (ihGap base inside rest₁ path₁ (track_gap gap) trivial)
    obtain ⟨r', two, moved⟩ := ih' base inside rest₂ path₂ second (.of_gap skipped slash)
    obtain ⟨ρ₃, rest₃, rfl⟩ := moved.of_matched
    exact ⟨_, .seq one skipped two, rfl, rfl, ρ₃, rest₃, rfl⟩
  | seqFirst _ ih =>
    obtain ⟨-, -, middle, first, -⟩ := tracked_seq tracked
    have none := refused_of_moved
      (ih base inside ahead path first (stands_first closing base path tracked stands))
    exact ⟨_, .seqFirst none, trivial⟩
  | seqGap _ gap =>
    exact absurd gap not_refused_gap
  | seqSecond _ _ _ ih ihGap ih' =>
    obtain ⟨-, slash, middle, first, gap, second⟩ := tracked_seq tracked
    have here := stands_first closing base path tracked stands
    obtain ⟨ρ₁, rest₁, one, path₁⟩ :=
      onward (j := .expr _) base path first here (ih base inside ahead path first here)
    obtain ⟨ρ₂, rest₂, skipped, path₂⟩ := onward base path₁ (track_gap gap) trivial
      (ihGap base inside rest₁ path₁ (track_gap gap) trivial)
    have none := refused_of_moved (ih' base inside rest₂ path₂ second (.of_gap skipped slash))
    exact ⟨_, .seqSecond one skipped none, trivial⟩
  | star _ _ ih ih' =>
    obtain ⟨rfl, slash, gap, within⟩ := tracked_star tracked
    have here := stands.inside slash
    obtain ⟨ρ₁, rest₁, one, path₁⟩ :=
      onward (j := .expr _) base path within here (ih base inside ahead path within here)
    obtain ⟨r', more, moved⟩ := ih' base inside rest₁ path₁ tracked trivial
    obtain ⟨ρ₂, rest₂, rfl⟩ := moved.of_matched
    exact ⟨_, .star one more, rfl, rfl, ρ₂, rest₂, rfl⟩
  | starNone _ ih =>
    obtain ⟨rfl, slash, gap, within⟩ := tracked_star tracked
    have none := refused_of_moved (ih base inside ahead path within (stands.inside slash))
    exact ⟨_, .starNone none, rfl, rfl, ρ, ahead, rfl⟩
  | @silent _ r _ _ hidden body ih =>
    obtain ⟨rfl, stood, there, above, entered, rfl, words⟩ := tracked_rule tracked
    rw [List.append_assoc] at path
    by_cases textual : isTextual r = true
    · exact textual_moved closing closed code entered textual ahead path (.silent hidden body)
    · have stands := Stands.body entered words stands
      have within := track_body entered stood (Bool.not_eq_true _ ▸ textual)
      rw [hidden] at stands within
      obtain ⟨r', here, moved⟩ :=
        ih (inCode_append base words) (inside.trans (List.suffix_append ..)) ahead path
        within stands
      exact ⟨r', .silent hidden here, moved⟩
  | @rule _ r _ _ nodes given body ih =>
    obtain ⟨rfl, stood, there, above, entered, rfl, words⟩ := tracked_rule tracked
    rw [List.append_assoc] at path
    by_cases textual : isTextual r = true
    · exact textual_moved closing closed code entered textual ahead path (.rule given body)
    · obtain ⟨r', here, moved⟩ :=
        ih (inCode_append base words) (inside.trans (List.suffix_append ..)) ahead path
        (track_body entered stood (Bool.not_eq_true _ ▸ textual)) (Stands.body entered words stands)
      obtain ⟨ρ', rest, rfl⟩ := moved.of_matched
      exact ⟨_, .rule given here, (enclose_moved _ r nodes body.advances ahead rest).symm, rfl, ρ',
        rest, rfl⟩
  | @noRule _ r _ given body ih =>
    obtain ⟨rfl, stood, there, above, entered, rfl, words⟩ := tracked_rule tracked
    rw [List.append_assoc] at path
    by_cases textual : isTextual r = true
    · exact textual_moved closing closed code entered textual ahead path (.noRule given body)
    · have none := refused_of_moved
        (ih (inCode_append base words) (inside.trans (List.suffix_append ..)) ahead path
        (track_body entered stood (Bool.not_eq_true _ ▸ textual))
          (Stands.body entered words stands))
      exact ⟨_, .noRule given none, trivial⟩
  | gap free body =>
    have checked : inCode open_ = true ∧ open_ = open' := by simpa [trackJob, free] using tracked
    exact gap_moved closing closed code ahead path
      (fun _ => inCode_append base checked.1) (.gap free body)
  | noGap bound =>
    exact gap_moved closing closed code ahead path (fun free => absurd free bound) (.noGap bound)
  | more _ _ _ ihGap ih ih' =>
    obtain ⟨rfl, slash, gap, within⟩ := tracked_star tracked
    obtain ⟨ρ₁, rest₁, skipped, path₁⟩ := onward base path (track_gap gap) trivial
      (ihGap base inside ahead path (track_gap gap) trivial)
    obtain ⟨ρ₂, rest₂, one, path₂⟩ :=
      onward (j := .expr _) base path₁ within (.of_gap skipped slash)
      (ih base inside rest₁ path₁ within (.of_gap skipped slash))
    obtain ⟨r', more, moved⟩ := ih' base inside rest₂ path₂ tracked trivial
    obtain ⟨ρ₃, rest₃, rfl⟩ := moved.of_matched
    exact ⟨_, .more skipped one more, rfl, rfl, ρ₃, rest₃, rfl⟩
  | moreEnd _ _ ihGap ih =>
    obtain ⟨rfl, slash, gap, within⟩ := tracked_star tracked
    obtain ⟨ρ₁, rest₁, skipped, path₁⟩ := onward base path (track_gap gap) trivial
      (ihGap base inside ahead path (track_gap gap) trivial)
    have none := refused_of_moved (ih base inside rest₁ path₁ within (.of_gap skipped slash))
    exact ⟨_, .moreEnd skipped none, rfl, rfl, ρ, ahead, rfl⟩
  | moreGap gap =>
    exact absurd gap not_refused_gap

end Scriptlet.Grammar
