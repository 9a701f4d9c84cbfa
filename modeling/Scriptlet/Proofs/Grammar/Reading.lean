import Scriptlet.Proofs.Grammar.Shift

/-!
What matches read.

Every job of the grammar has a result. Where nothing is skipped, the text ahead alone decides how
far layout and the characters of strings reach: they are repetitions of steps that either read on or
cannot.
-/

namespace Scriptlet.Grammar

variable {R : Type} {g : RuleSet R} {ctx : Context} {c d : Cursor}

/-! ### Places -/

/-- A place in a text is known by what is ahead. -/
theorem Cursor.Advances.unique {e : Cursor} (one : c.Advances d) (other : c.Advances e)
    (same : d.rest = e.rest) : d = e := by
  obtain ⟨cs, rest, pos⟩ := one
  obtain ⟨ds, rest', pos'⟩ := other
  have read : cs = ds := List.append_cancel_right (rest.symm.trans (same ▸ rest'))
  obtain ⟨ahead, place⟩ := d
  obtain ⟨ahead', place'⟩ := e
  simp only at same pos pos'
  rw [same, pos, pos', read]

theorem Cursor.Advances.suffix (advances : c.Advances d) : d.rest <:+ c.rest := by
  obtain ⟨cs, rest, -⟩ := advances
  exact ⟨cs, rest.symm⟩

theorem stripText?_eq_some_iff {cs : List Char} :
    stripText? cs c = some d ↔ c.rest = cs ++ d.rest ∧ d.pos = c.pos + bytes cs := by
  constructor
  · intro stripped
    induction cs generalizing c with
    | nil =>
      cases stripped
      simp
    | cons x cs ih =>
      unfold stripText? at stripped
      split at stripped
      next y rest ahead =>
        split at stripped
        next same =>
          obtain ⟨rest', pos⟩ := ih stripped
          rw [ahead, same, List.cons_append, ← rest', pos, bytes_cons, Nat.add_assoc]
          exact ⟨rfl, rfl⟩
        next => cases stripped
      next => cases stripped
  · rintro ⟨rest, pos⟩
    obtain ⟨ahead, place⟩ := c
    obtain ⟨after, place'⟩ := d
    simp only at rest pos
    rw [rest, pos]
    exact stripText?_append cs after place

theorem stripText?_eq_none_iff {cs : List Char} : stripText? cs c = none ↔ ¬cs <+: c.rest := by
  rw [Option.eq_none_iff_forall_ne_some]
  constructor
  · rintro none ⟨rest, same⟩
    exact none ⟨rest, c.pos + bytes cs⟩ (stripText?_eq_some_iff.2 ⟨same.symm, rfl⟩)
  · intro apart d stripped
    exact apart ⟨d.rest, (stripText?_eq_some_iff.1 stripped).1.symm⟩

/-! ### Matches -/

theorem Derives.advances {j : Job R} {nodes : List (Node R)}
    (derives : Derives g ctx j c (.matched nodes d)) :
    c.Advances d := by
  generalize matched : Result.matched nodes d = r at derives
  induction derives generalizing nodes d with
  | text stripped =>
    cases matched
    exact stripText?_advances stripped
  | char =>
    cases matched
    exact .char rfl
  | start | finish | optNone | not | starNone | noGap | moreEnd | moreGap =>
    cases matched
    exact .refl _
  | opt _ ih | left _ ih | silent _ _ ih | gap _ _ ih => exact ih matched
  | right _ _ _ ih => exact ih matched
  | seq _ _ _ first gap second =>
    cases matched
    exact ((first rfl).trans (gap rfl)).trans (second rfl)
  | star _ _ first rest =>
    cases matched
    exact (first rfl).trans (rest rfl)
  | rule _ _ ih =>
    cases matched
    exact ih rfl
  | more _ _ _ gap first rest =>
    cases matched
    exact ((gap rfl).trans (first rfl)).trans (rest rfl)
  | noText | noChar | charEnd | noStart | noFinish | notNone | seqFirst | seqGap | seqSecond |
    noRule =>
    cases matched

/-- What is tried has a result, wherever it is tried. -/
theorem exists_derives {e : Peg Rule} {gap : Nat} (fits : scriptMeasure.fits gap e = true)
    (positive : 0 < gap) (free : ctx.spacing = .free → scriptMeasure.gap script ≤ gap)
    (c : Cursor) :
    ∃ r, Derives script ctx (.expr e) c r := by
  have ended := (RuleSet.ends bounds_script
    (RuleSet.depthPerChar * c.rest.length + scriptMeasure.reach gap e)).run (t := .empty)
      (c := c) fits
    positive free (Nat.le_refl _)
  cases ran : RuleSet.run script
    (RuleSet.depthPerChar * c.rest.length + scriptMeasure.reach gap e) e ctx c
      .empty with
  | exhausted => exact absurd ran ended
  | matched nodes d t => exact ⟨_, RuleSet.run_derives (congrArg Outcome.result? ran)⟩
  | refused t => exact ⟨_, RuleSet.run_derives (congrArg Outcome.result? ran)⟩

theorem exists_derives_rule (r : Rule) (ctx : Context) (c : Cursor) :
    ∃ result, Derives script ctx (.expr (.rule r)) c result :=
  @exists_derives ctx (.rule r) _ rfl (Nat.succ_pos _) (fun _ => Nat.le_refl _) c

theorem exists_of_anyOf {rs : List Rule} {nodes : List (Node Rule)}
    (derives : Derives script ctx (.expr (anyOf rs)) c (.matched nodes d)) :
    ∃ r ∈ rs, Derives script ctx (.expr (.rule r)) c (.matched nodes d) := by
  induction rs with
  | nil => cases derives with
    | not none => cases none with
      | noText apart => cases apart
  | cons r rs ih =>
    cases rs with
    | nil => exact ⟨r, List.mem_singleton_self r, derives⟩
    | cons r' rs =>
      cases derives with
      | left one => exact ⟨r, List.mem_cons_self, one⟩
      | right _ one =>
        obtain ⟨r, member, one⟩ := ih one
        exact ⟨r, List.mem_cons_of_mem _ member, one⟩

/-! ### Steps -/

/-- A step that reads characters of the text ahead, if it can. -/
abbrev Step := List Char → Option (List Char)

/-- The text ahead alone decides what an expression reads, and it gives no nodes. -/
structure Decides (ctx : Context) (e : Peg Rule) (f : Step) : Prop where
  matched : ∀ {c d nodes}, Derives script ctx (.expr e) c (.matched nodes d) →
    nodes = [] ∧ f c.rest = some d.rest
  refused : ∀ {c}, Derives script ctx (.expr e) c .refused → f c.rest = none

namespace Step

/-- The step over a literal. -/
def text (cs : List Char) : Step := fun ds =>
  if cs <+: ds then some (ds.drop cs.length) else none

/-- The step over a character of a class. -/
def char (k : CharClass) : Step
  | x :: rest => if k.holds x then some rest else none
  | [] => none

/-- The step over any character where another step cannot be taken. -/
def except (f : Step) : Step := fun cs =>
  match f cs, cs with
  | none, _ :: rest => some rest
  | _, _ => none

/-- What is left of a text after a step that is repeated as long as it reads on. -/
def exhaust (f : Step) (cs : List Char) : List Char :=
  match f cs with
  | none => cs
  | some ds => if ds.length < cs.length then exhaust f ds else cs
termination_by cs.length

theorem exhaust_of_none {f : Step} {cs : List Char} (stuck : f cs = none) : exhaust f cs = cs := by
  rw [exhaust, stuck]

theorem exhaust_of_some {f : Step} {cs ds : List Char} (read : f cs = some ds)
    (suffix : ds <:+ cs) :
    exhaust f cs = exhaust f ds := by
  rw [exhaust, read]
  simp only
  split
  · rfl
  next same =>
    have stays : ds = cs := suffix.eq_of_length_le (Nat.le_of_not_lt same)
    subst stays
    rw [exhaust, read]
    simp

end Step

namespace Decides

variable {a b e : Peg Rule} {f h : Step}

theorem text (cs : List Char) : Decides ctx (.text cs) (.text cs) := by
  constructor
  · intro c d nodes derives
    cases derives with
    | text stripped =>
      obtain ⟨ahead, -⟩ := stripText?_eq_some_iff.1 stripped
      exact ⟨rfl, by simp [Step.text, ahead]⟩
  · intro c derives
    cases derives with
    | noText stripped => exact if_neg (stripText?_eq_none_iff.1 stripped)

theorem char (k : CharClass) : Decides ctx (.char k) (.char k) := by
  constructor
  · intro c d nodes derives
    cases derives with
    | char holds => exact ⟨rfl, if_pos holds⟩
  · intro c derives
    cases derives with
    | noChar fails => exact if_neg (Bool.eq_false_iff.1 fails)
    | charEnd => rfl

theorem alt (first : Decides ctx a f) (second : Decides ctx b h) :
    Decides ctx (.alt a b) fun cs => f cs <|> h cs := by
  constructor
  · intro c d nodes derives
    cases derives with
    | left here =>
      obtain ⟨none, read⟩ := first.matched here
      exact ⟨none, by simp [read]⟩
    | right none here =>
      obtain ⟨none, read⟩ := second.matched here
      exact ⟨none, by simp [first.refused ‹_›, read]⟩
  · intro c derives
    cases derives with
    | right none none' => simp [first.refused none, second.refused none']

theorem silent {r : Rule} (hidden : (script.define r).kind = .silent)
    (body : Decides ctx (script.define r).body f) : Decides ctx (.rule r) f := by
  constructor
  · intro c d nodes derives
    cases derives with
    | silent _ inside => exact body.matched inside
    | rule given => exact absurd hidden given
  · intro c derives
    cases derives with
    | silent _ inside => exact body.refused inside
    | noRule given => exact absurd hidden given

section Tight

variable (tight : ctx.spacing ≠ .free)

include tight

omit tight in
theorem stay {nodes : List (Node R)} (tight : ctx.spacing ≠ .free)
    (gap : Derives g ctx .gap c (.matched nodes d)) : c = d := by
  cases gap with
  | gap free => exact absurd free tight
  | noGap => rfl

theorem seq (first : Decides ctx a f) (second : Decides ctx b h) :
    Decides ctx (.seq a b) fun cs => f cs >>= h := by
  constructor
  · intro c d nodes derives
    cases derives with
    | seq one gap two =>
      cases stay tight gap
      obtain ⟨rfl, read⟩ := first.matched one
      obtain ⟨rfl, read'⟩ := second.matched two
      exact ⟨rfl, by simp [read, read']⟩
  · intro c derives
    cases derives with
    | seqFirst none => simp [first.refused none]
    | seqGap one gap =>
      cases gap with
      | gap free => exact absurd free tight
    | seqSecond one gap none =>
      cases stay tight gap
      simp [(first.matched one).2, second.refused none]

theorem except (stop : Decides ctx.flipped e f) :
    Decides ctx (Grammar.except e) (.except f) := by
  constructor
  · intro c d nodes derives
    cases derives with
    | seq one gap two =>
      cases stay tight gap
      cases one with
      | not none =>
        cases two with
        | char => exact ⟨rfl, by simp [Step.except, stop.refused none]⟩
  · intro c derives
    cases derives with
    | seqFirst none =>
      cases none with
      | notNone here => simp [Step.except, (stop.matched here).2]
    | seqGap one gap =>
      cases gap with
      | gap free => exact absurd free tight
    | seqSecond one gap none =>
      cases stay tight gap
      cases one with
      | not none' =>
        cases none with
        | noChar fails => cases fails
        | charEnd => simp [Step.except]

theorem star (step : Decides ctx e f) : Decides ctx (.star e) fun cs => some (f.exhaust cs) := by
  have all {j : Job Rule} {c : Cursor} {r : Result Rule} (derives : Derives script ctx j c r)
      (repeats : j = .expr (.star e) ∨ j = .more e) :
      ∃ d, r = .matched [] d ∧ f.exhaust c.rest = d.rest := by
    induction derives with
    | star first _ _ ih =>
      rcases repeats with same | same <;> cases same
      obtain ⟨rfl, read⟩ := step.matched first
      obtain ⟨_, ⟨⟩, rest⟩ := ih tight step (.inr rfl)
      exact ⟨_, rfl, (Step.exhaust_of_some read first.advances.suffix).trans rest⟩
    | starNone first =>
      rcases repeats with same | same <;> cases same
      exact ⟨_, rfl, Step.exhaust_of_none (step.refused first)⟩
    | more gap first _ _ _ ih =>
      rcases repeats with same | same <;> cases same
      cases stay tight gap
      obtain ⟨rfl, read⟩ := step.matched first
      obtain ⟨_, ⟨⟩, rest⟩ := ih tight step (.inr rfl)
      exact ⟨_, rfl, (Step.exhaust_of_some read first.advances.suffix).trans rest⟩
    | moreEnd gap first =>
      rcases repeats with same | same <;> cases same
      cases stay tight gap
      exact ⟨_, rfl, Step.exhaust_of_none (step.refused first)⟩
    | moreGap gap => cases gap with
      | gap free => exact absurd free tight
    | _ => rcases repeats with same | same <;> cases same
  constructor
  · intro c d nodes derives
    obtain ⟨d, same, rest⟩ := all derives (.inl rfl)
    cases same
    exact ⟨rfl, congrArg some rest⟩
  · intro c derives
    obtain ⟨d, same, -⟩ := all derives (.inl rfl)
    cases same

end Tight

end Decides

/-! ### Layout -/

def isLineEnd (x : Char) : Bool :=
  x == '\n' || x == '\r'

/-- What is left after the end of a block comment, if it has one. -/
def blockEnd? : Step
  | '*' :: '/' :: rest => some rest
  | _ :: rest => blockEnd? rest
  | [] => none

/-- The step over a blank or a comment. -/
def layoutUnit : Step
  | '/' :: '/' :: rest => some (rest.dropWhile (!isLineEnd ·))
  | '/' :: '*' :: rest => blockEnd? rest
  | x :: rest => if CharClass.blank.holds x then some rest else none
  | [] => none

/-- What is left of a text after the layout in front. -/
def clean (cs : List Char) : List Char :=
  layoutUnit.exhaust cs

theorem exhaust_line (cs : List Char) :
    (Step.except fun ds => Step.text ['\n'] ds <|> Step.text ['\r'] ds).exhaust cs =
      cs.dropWhile (!isLineEnd ·) := by
  induction cs with
  | nil => exact Step.exhaust_of_none rfl
  | cons x cs ih =>
    by_cases ends : isLineEnd x = true
    · rw [Step.exhaust_of_none, List.dropWhile_cons_of_neg (by simp [ends])]
      rcases Bool.or_eq_true_iff.1 ends with same | same <;>
        simp [Step.except, Step.text, eq_of_beq same]
    · rw [@Step.exhaust_of_some _ _ cs _ (List.suffix_cons ..), ih,
        List.dropWhile_cons_of_pos (by simp [ends])]
      simp only [isLineEnd, Bool.or_eq_true, beq_iff_eq, not_or] at ends
      simp [Step.except, Step.text, Ne.symm ends.1, Ne.symm ends.2]

theorem exhaust_block (cs : List Char) :
    Step.text ['*', '/'] ((Step.except (Step.text ['*', '/'])).exhaust cs) = blockEnd? cs := by
  induction cs with
  | nil =>
    rw [Step.exhaust_of_none rfl]
    rfl
  | cons x cs ih =>
    by_cases ends : ['*', '/'] <+: x :: cs
    · obtain ⟨rest, same⟩ := ends
      cases same
      rw [Step.exhaust_of_none] <;> simp [Step.except, Step.text, blockEnd?]
    · rw [@Step.exhaust_of_some _ _ cs (by simp [Step.except, Step.text, ends])
        (List.suffix_cons ..), ih, blockEnd?.eq_def (x :: cs)]
      split
      next same =>
        cases same
        exact absurd ⟨_, rfl⟩ ends
      next same =>
        cases same
        rfl
      next same => cases same

section Layout

variable (tight : ctx.spacing ≠ .free)

include tight

theorem decides_line : Decides ctx lineComment fun cs =>
    Step.text ['/', '/'] cs >>= fun rest => some (rest.dropWhile (!isLineEnd ·)) := by
  have stop (ctx : Context) : Decides ctx (alts [lit "\n", lit "\r"])
      fun ds => Step.text ['\n'] ds <|> Step.text ['\r'] ds :=
    .alt (.text ['\n']) (.text ['\r'])
  have body := (Decides.except tight (stop ctx.flipped)).star tight
  simp only [exhaust_line] at body
  exact .seq tight (.text ['/', '/']) body

theorem decides_block : Decides ctx blockComment fun cs =>
    Step.text ['/', '*'] cs >>= blockEnd? := by
  have stop : Decides ctx.flipped (lit "*/") (Step.text ['*', '/']) := .text ['*', '/']
  have body := ((Decides.except tight stop).star tight).seq tight (.text ['*', '/'])
  simp only [Option.bind_eq_bind, Option.bind_some, exhaust_block] at body
  exact .seq tight (.text ['/', '*']) body

theorem decides_layoutUnit :
    Decides ctx (alts [.char .blank, lineComment, blockComment]) layoutUnit := by
  have each : Decides ctx _ _ :=
    .alt (.char .blank) (.alt (decides_line tight) (decides_block tight))
  refine cast (congrArg _ (funext fun cs => ?_)) each
  unfold layoutUnit
  split
  · simp [Step.char, Step.text, show CharClass.blank.holds '/' = false by decide]
  · simp [Step.char, Step.text, show CharClass.blank.holds '/' = false by decide]
  next x rest line block =>
    have notLine : ¬['/', '/'] <+: x :: rest := by
      rintro ⟨_, same⟩
      cases same
      exact line _ rfl rfl
    have notBlock : ¬['/', '*'] <+: x :: rest := by
      rintro ⟨_, same⟩
      cases same
      exact block _ rfl rfl
    by_cases blank : CharClass.blank.holds x = true <;>
      simp [Step.char, Step.text, blank, notLine, notBlock]
  · rfl

theorem decides_layout : Decides ctx layout fun cs => some (clean cs) :=
  (decides_layoutUnit tight).star tight

end Layout

/-- The place after the layout that comes next. -/
def Cursor.skip (c : Cursor) : Cursor :=
  ⟨clean c.rest, c.pos + (bytes c.rest - bytes (clean c.rest))⟩

/-- Layout is skipped wherever it may be. -/
theorem derives_skip (free : ctx.spacing = .free) (c : Cursor) :
    Derives script ctx .gap c (.matched [] c.skip) := by
  have tight : ctx.tight.spacing ≠ .free := nofun
  obtain ⟨r, derives⟩ := @exists_derives ctx.tight layout 1 bounds_script.layout Nat.one_pos
    (fun free => absurd free tight) c
  have decides := decides_layout tight
  cases r with
  | refused => cases decides.refused derives
  | matched nodes d =>
    obtain ⟨rfl, rest⟩ := decides.matched derives
    obtain ⟨cs, ahead, pos⟩ := derives.advances
    have here : d = c.skip := by
      obtain ⟨ahead', place⟩ := d
      simp only [Option.some.injEq] at rest ahead pos
      rw [Cursor.skip, ahead, bytes_append, ← ahead, rest, pos, Nat.add_sub_cancel]
    exact here ▸ .gap free derives

/-! ### Matches where layout is skipped -/

/-- Where layout is skipped and rules give nodes. -/
def Context.top : Context :=
  ⟨.free, .nowhere⟩

def Matches (e : Peg Rule) (c : Cursor) (nodes : List (Node Rule)) (d : Cursor) : Prop :=
  Derives script .top (.expr e) c (.matched nodes d)

def Refused (e : Peg Rule) (c : Cursor) : Prop :=
  Derives script .top (.expr e) c .refused

/-- Further matches of what is repeated. -/
def Repeats (e : Peg Rule) (c : Cursor) (nodes : List (Node Rule)) (d : Cursor) : Prop :=
  Derives script .top (.more e) c (.matched nodes d)

section Top

variable {a b e : Peg Rule} {r : Rule} {nodes : List (Node Rule)}

theorem Matches.unique {nodes' : List (Node Rule)} {d' : Cursor} (one : Matches e c nodes d)
    (other : Matches e c nodes' d') : nodes = nodes' ∧ d = d' := by
  cases Derives.unique one other
  exact ⟨rfl, rfl⟩

theorem gap_eq {gap : List (Node Rule)} (skipped : Derives script .top .gap c (.matched gap d)) :
    gap = [] ∧ d = c.skip := by
  cases skipped.unique (derives_skip rfl c)
  exact ⟨rfl, rfl⟩

theorem matches_seq : Matches (.seq a b) c nodes d ↔ ∃ first second e, nodes = first ++ second ∧
    Matches a c first e ∧ Matches b e.skip second d := by
  constructor
  · intro derives
    cases derives with
    | seq one gap two =>
      obtain ⟨rfl, rfl⟩ := gap_eq gap
      exact ⟨_, _, _, rfl, one, two⟩
  · rintro ⟨first, second, e, rfl, one, two⟩
    exact Derives.seq one (derives_skip rfl e) two

theorem matches_alt : Matches (.alt a b) c nodes d ↔
    Matches a c nodes d ∨ Refused a c ∧ Matches b c nodes d := by
  constructor
  · intro derives
    cases derives with
    | left one => exact .inl one
    | right none one => exact .inr ⟨none, one⟩
  · rintro (one | ⟨none, one⟩)
    · exact Derives.left one
    · exact Derives.right none one

theorem matches_opt : Matches (.opt e) c nodes d ↔
    Matches e c nodes d ∨ Refused e c ∧ nodes = [] ∧ d = c := by
  constructor
  · intro derives
    cases derives with
    | opt one => exact .inl one
    | optNone none => exact .inr ⟨none, rfl, rfl⟩
  · rintro (one | ⟨none, rfl, rfl⟩)
    · exact Derives.opt one
    · exact Derives.optNone none

theorem matches_star : Matches (.star e) c nodes d ↔
    (Refused e c ∧ nodes = [] ∧ d = c) ∨
      ∃ first rest f, nodes = first ++ rest ∧ Matches e c first f ∧ Repeats e f rest d := by
  constructor
  · intro derives
    cases derives with
    | star one rest => exact .inr ⟨_, _, _, rfl, one, rest⟩
    | starNone none => exact .inl ⟨none, rfl, rfl⟩
  · rintro (⟨none, rfl, rfl⟩ | ⟨first, rest, f, rfl, one, more⟩)
    · exact Derives.starNone none
    · exact Derives.star one more

theorem repeats_iff : Repeats e c nodes d ↔
    (Refused e c.skip ∧ nodes = [] ∧ d = c) ∨
      ∃ first rest f, nodes = first ++ rest ∧ Matches e c.skip first f ∧ Repeats e f rest d := by
  constructor
  · intro derives
    cases derives with
    | more gap one rest =>
      obtain ⟨-, rfl⟩ := gap_eq gap
      exact .inr ⟨_, _, _, rfl, one, rest⟩
    | moreEnd gap none =>
      obtain ⟨-, rfl⟩ := gap_eq gap
      exact .inl ⟨none, rfl, rfl⟩
    | moreGap gap => cases gap.unique (derives_skip rfl c)
  · rintro (⟨none, rfl, rfl⟩ | ⟨first, rest, f, rfl, one, more⟩)
    · exact Derives.moreEnd (derives_skip rfl d) none
    · exact Derives.more (derives_skip rfl c) one more

theorem matches_silent (hidden : (script.define r).kind = .silent) :
    Matches (.rule r) c nodes d ↔ Matches (script.define r).body c nodes d := by
  constructor
  · intro derives
    cases derives with
    | silent _ body => exact body
    | rule given => exact absurd hidden given
  · exact Derives.silent hidden

theorem matches_plain (plain : (script.define r).kind = .plain) :
    Matches (.rule r) c nodes d ↔ ∃ children,
      nodes = [⟨r, ⟨c.pos, d.pos⟩, "", children⟩] ∧
      Matches (script.define r).body c children d := by
  have given : (script.define r).kind ≠ .silent := by simp [plain]
  have context : Context.within .top (script.define r).kind = .top := by rw [plain]; rfl
  constructor
  · intro derives
    cases derives with
    | silent hidden => exact absurd hidden given
    | @rule _ _ _ _ children _ body =>
      rw [context] at body
      exact ⟨children, by simp [RuleKind.enclose, plain, RuleKind.outer, Context.top], body⟩
  · rintro ⟨children, rfl, body⟩
    have inside : Derives script (Context.within .top (script.define r).kind)
        (.expr (script.define r).body) c (.matched children d) := by
      rw [context]
      exact body
    have derives := Derives.rule given inside
    simpa [RuleKind.enclose, plain, RuleKind.outer, Matches, Context.top] using derives

/-- Further matches one after the other. -/
theorem Repeats.induction {motive : Cursor → List (Node Rule) → Prop}
    (repeats : Repeats e c nodes d)
    (stop : Refused e d.skip → motive d [])
    (step : ∀ {c first f rest}, Matches e c.skip first f → Repeats e f rest d → motive f rest →
      motive c (first ++ rest)) : motive c nodes := by
  have all {ctx : Context} {j : Job Rule} {c : Cursor} {r : Result Rule}
    (derives : Derives script ctx j c r)
      (top : ctx = .top) (repeated : j = .more e) (nodes : List (Node Rule))
        (same : r = .matched nodes d) :
      motive c nodes := by
    induction derives generalizing nodes with
    | more gap one rest _ _ ih =>
      cases repeated
      cases same
      subst top
      obtain ⟨-, rfl⟩ := gap_eq gap
      exact step one rest (ih rfl rfl _ rfl)
    | moreEnd gap none =>
      cases repeated
      cases same
      subst top
      obtain ⟨-, rfl⟩ := gap_eq gap
      exact stop none
    | moreGap gap =>
      subst top
      cases gap.unique (derives_skip rfl _)
    | _ => cases repeated
  exact all repeats rfl rfl nodes rfl

end Top

end Scriptlet.Grammar
