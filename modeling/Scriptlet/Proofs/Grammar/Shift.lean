import Scriptlet.Proofs.Grammar.Extent
import Scriptlet.Proofs.Grammar.Total

/-!
What is matched depends on the text ahead only.

A match at another place of another text gives the same nodes at other places, as long as no
expression asks for the start of the text. Only a program does that, and it skips layout next. Main
statement: `parse_shift`, a text after layout is matched as it is alone.
-/

namespace Scriptlet

/-- The span in a text that has `d` bytes more before it. -/
def Span.shift (d : Nat) (s : Span) : Span :=
  ⟨s.start + d, s.stop + d⟩

namespace Grammar

variable {R : Type}

/-! ### Shifting -/

def Cursor.shift (d : Nat) (c : Cursor) : Cursor :=
  ⟨c.rest, c.pos + d⟩

mutual

def Node.shift (d : Nat) : Node R → Node R
  | ⟨rule, span, text, children⟩ => ⟨rule, span.shift d, text, shiftNodes d children⟩

def shiftNodes (d : Nat) : List (Node R) → List (Node R)
  | [] => []
  | n :: rest => n.shift d :: shiftNodes d rest

end

def Result.shift (d : Nat) : Result R → Result R
  | .matched nodes c => .matched (shiftNodes d nodes) (c.shift d)
  | .refused => .refused

theorem shiftNodes_append (d : Nat) (ns ms : List (Node R)) :
    shiftNodes d (ns ++ ms) = shiftNodes d ns ++ shiftNodes d ms := by
  induction ns with
  | nil => rfl
  | cons n ns ih => simp [shiftNodes, ih]

theorem stripText?_shift (d : Nat) (cs : List Char) (c : Cursor) :
    stripText? cs (c.shift d) = (stripText? cs c).map (Cursor.shift d) := by
  induction cs generalizing c with
  | nil => rfl
  | cons x xs ih =>
    unfold stripText?
    simp only [Cursor.shift]
    split
    · split
      · rw [← ih, Cursor.shift]
        simp only [Nat.add_right_comm]
      · rfl
    · rfl

theorem enclose_shift (d : Nat) (kind : RuleKind) (r : R) (ctx : Context) (before after : Cursor)
    (nodes : List (Node R)) :
    kind.enclose r ctx (before.shift d) (after.shift d) (shiftNodes d nodes) =
      shiftNodes d (kind.enclose r ctx before after nodes) := by
  unfold RuleKind.enclose
  split
  · simp only [Cursor.shift, Nat.add_sub_add_right, shiftNodes, Node.shift, Span.shift]
  · rfl

namespace Peg

/-- Whether an expression does not ask for the start of the text, given which rules do not. -/
def placeless (inner : R → Bool) : Peg R → Bool
  | .text _ | .char _ | .finish => true
  | .start => false
  | .rule r => inner r
  | .seq a b | .alt a b => a.placeless inner && b.placeless inner
  | .star e | .opt e | .not e => e.placeless inner

end Peg

def Job.placeless (inner : R → Bool) : Job R → Bool
  | .expr e | .more e => e.placeless inner
  | .gap => true

variable {g : RuleSet R} {ctx : Context} {j : Job R} {c : Cursor} {r : Result R} {inner : R → Bool}

/-- A match at another place ends in the same way. -/
theorem Derives.shift (layout : g.layout.placeless inner = true)
    (bodies : ∀ r, inner r = true → (g.define r).body.placeless inner = true) (d : Nat)
    (derives : Derives g ctx j c r) (placeless : j.placeless inner = true) :
    Derives g ctx j (c.shift d) (r.shift d) := by
  induction derives with
  | text stripped => exact .text (by rw [stripText?_shift, stripped]; rfl)
  | noText stripped => exact .noText (by rw [stripText?_shift, stripped]; rfl)
  | @char ctx k x rest pos holds =>
    have := @Derives.char R g ctx k x rest (pos + d) holds
    rwa [Nat.add_right_comm] at this
  | noChar fails => exact .noChar fails
  | charEnd => exact .charEnd
  | start | noStart => cases placeless
  | finish ended => exact .finish ended
  | noFinish ahead => exact .noFinish ahead
  | opt _ ih => exact .opt (ih placeless)
  | optNone _ ih => exact .optNone (ih placeless)
  | not _ ih => exact .not (ih placeless)
  | notNone _ ih => exact .notNone (ih placeless)
  | left _ ih => exact .left (ih (Bool.and_eq_true_iff.1 placeless).1)
  | right _ _ first second =>
    exact .right (first (Bool.and_eq_true_iff.1 placeless).1)
      (second (Bool.and_eq_true_iff.1 placeless).2)
  | seq _ _ _ first gap second =>
    rw [Result.shift, shiftNodes_append]
    exact .seq (first (Bool.and_eq_true_iff.1 placeless).1) (gap rfl)
      (second (Bool.and_eq_true_iff.1 placeless).2)
  | seqFirst _ first => exact .seqFirst (first (Bool.and_eq_true_iff.1 placeless).1)
  | seqGap _ _ first gap => exact .seqGap (first (Bool.and_eq_true_iff.1 placeless).1) (gap rfl)
  | seqSecond _ _ _ first gap second =>
    exact .seqSecond (first (Bool.and_eq_true_iff.1 placeless).1) (gap rfl)
      (second (Bool.and_eq_true_iff.1 placeless).2)
  | star _ _ first rest =>
    rw [Result.shift, shiftNodes_append]
    exact .star (first placeless) (rest placeless)
  | starNone _ first => exact .starNone (first placeless)
  | silent hidden _ ih => exact .silent hidden (ih (bodies _ placeless))
  | rule given _ ih =>
    rw [Result.shift, ← enclose_shift]
    exact .rule given (ih (bodies _ placeless))
  | noRule given _ ih => exact .noRule given (ih (bodies _ placeless))
  | gap free _ ih => exact .gap free (ih layout)
  | noGap bound => exact .noGap bound
  | more _ _ _ gap first rest =>
    rw [Result.shift, shiftNodes_append]
    exact .more (gap rfl) (first placeless) (rest placeless)
  | moreEnd _ _ gap first => exact .moreEnd (gap rfl) (first placeless)
  | moreGap _ gap => exact .moreGap (gap rfl)

/-! ### Layout -/

/-- A text of blanks, comments up to the end of a line and closed comments. -/
inductive Layout : List Char → Prop where
  | nil : Layout []
  | blank {x : Char} {w : List Char} : CharClass.blank.holds x = true → Layout w → Layout (x :: w)
  | line {body w : List Char} {x : Char} : '\n' ∉ body → '\r' ∉ body → x = '\n' ∨ x = '\r' →
      Layout w → Layout ('/' :: '/' :: body ++ x :: w)
  | block {body w : List Char} : ¬['*', '/'] <:+: body → Layout w →
      Layout ('/' :: '*' :: body ++ '*' :: '/' :: w)

section Skipping

variable {nodes : List (Node Rule)} {d : Cursor} {rest : List Char} {p : Nat}

/-- The second form of a repetition, where nothing is skipped. -/
theorem Derives.more_of_star {e : Peg R} {nodes : List (Node R)} {d : Cursor}
    (tight : ctx.spacing ≠ .free)
    (star : Derives g ctx (.expr (.star e)) c (.matched nodes d)) :
    Derives g ctx (.more e) c (.matched nodes d) := by
  cases star with
  | star first rest => exact .more (.noGap tight) first rest
  | starNone first => exact .moreEnd (.noGap tight) first

/-- One more copy before a repetition, where nothing is skipped. -/
theorem Derives.star_cons {e : Peg R} {nodes : List (Node R)} {b d : Cursor}
    (tight : ctx.spacing ≠ .free) (first : Derives g ctx (.expr e) b (.matched [] c))
    (star : Derives g ctx (.expr (.star e)) c (.matched nodes d)) :
    Derives g ctx (.expr (.star e)) b (.matched nodes d) :=
  .star first (star.more_of_star tight)

/-- Characters up to what ends them. -/
theorem Derives.until {g : RuleSet Rule} {e : Peg Rule} (tight : ctx.spacing ≠ .free)
    {body : List Char}
    (inside : ∀ x post, x :: post <:+ body →
      ∀ p, Derives g ctx.flipped (.expr e) ⟨x :: post ++ rest, p⟩ .refused)
    (stop : ∀ p, ∃ ended after, Derives g ctx.flipped (.expr e) ⟨rest, p⟩ (.matched ended after)) :
    Derives g ctx (.expr (.star (except e))) ⟨body ++ rest, p⟩
      (.matched [] ⟨rest, p + bytes body⟩) := by
  induction body generalizing p with
  | nil =>
    obtain ⟨ended, after, matched⟩ := stop p
    rw [bytes_nil, Nat.add_zero]
    exact .starNone (.seqFirst (.notNone matched))
  | cons x body ih =>
    have step : Derives g ctx (.expr (except e)) ⟨x :: body ++ rest, p⟩
        (.matched [] ⟨body ++ rest, p + x.utf8Size⟩) :=
      .seq (.not (inside x body List.suffix_rfl p)) (.noGap tight) (.char rfl)
    rw [bytes_cons, ← Nat.add_assoc]
    refine step.star_cons tight (ih fun y post suffix => inside y post ?_)
    exact suffix.trans (List.suffix_cons ..)

theorem stripText?_append (cs rest : List Char) (p : Nat) :
    stripText? cs ⟨cs ++ rest, p⟩ = some ⟨rest, p + bytes cs⟩ := by
  induction cs generalizing p with
  | nil => simp [stripText?]
  | cons x cs ih => simp [stripText?, ih, Nat.add_assoc]

theorem derives_line {g : RuleSet Rule} {body : List Char} {x : Char} (tight : ctx.spacing ≠ .free)
    (noFeed : '\n' ∉ body) (noReturn : '\r' ∉ body) (ends : x = '\n' ∨ x = '\r') :
    Derives g ctx (.expr lineComment) ⟨'/' :: '/' :: body ++ x :: rest, p⟩
      (.matched [] ⟨x :: rest, p + bytes ('/' :: '/' :: body)⟩) := by
  have opened : Derives g ctx (.expr (lit "//")) ⟨'/' :: '/' :: body ++ x :: rest, p⟩
      (.matched [] ⟨body ++ x :: rest, p + bytes ['/', '/']⟩) :=
    .text (stripText?_append ['/', '/'] (body ++ x :: rest) p)
  have inside : Derives g ctx (.expr (.star (except (alts [lit "\n", lit "\r"]))))
      ⟨body ++ x :: rest, p + bytes ['/', '/']⟩
      (.matched [] ⟨x :: rest, p + bytes ['/', '/'] + bytes body⟩) := by
    refine .until tight (fun y post suffix p => ?_) fun p => ?_
    · have member : y ∈ body := suffix.subset List.mem_cons_self
      refine .right (.noText ?_) (.noText ?_)
      · have : '\n' ≠ y := fun same => noFeed (same ▸ member)
        simp [stripText?, this]
      · have : '\r' ≠ y := fun same => noReturn (same ▸ member)
        simp [stripText?, this]
    · rcases ends with rfl | rfl
      · exact ⟨_, _, .left (.text (stripText?_append ['\n'] rest p))⟩
      · exact
          ⟨_, _, .right (.noText (by simp [stripText?])) (.text (stripText?_append ['\r'] rest p))⟩
  have both := Derives.seq opened (.noGap tight) inside
  rw [Nat.add_assoc, ← bytes_append] at both
  exact both

theorem derives_block {g : RuleSet Rule} {body : List Char} (tight : ctx.spacing ≠ .free)
    (first : ¬['*', '/'] <:+: body) :
    Derives g ctx (.expr blockComment) ⟨'/' :: '*' :: body ++ '*' :: '/' :: rest, p⟩
      (.matched [] ⟨rest, p + bytes ('/' :: '*' :: body ++ ['*', '/'])⟩) := by
  have opened : Derives g ctx (.expr (lit "/*")) ⟨'/' :: '*' :: body ++ '*' :: '/' :: rest, p⟩
      (.matched [] ⟨body ++ '*' :: '/' :: rest, p + bytes ['/', '*']⟩) :=
    .text (stripText?_append ['/', '*'] (body ++ '*' :: '/' :: rest) p)
  have closed (p : Nat) (ctx : Context) : Derives g ctx (.expr (lit "*/")) ⟨'*' :: '/' :: rest, p⟩
      (.matched [] ⟨rest, p + bytes ['*', '/']⟩) := .text (stripText?_append ['*', '/'] rest p)
  have inside : Derives g ctx (.expr (.star (except (lit "*/"))))
      ⟨body ++ '*' :: '/' :: rest, p + bytes ['/', '*']⟩
      (.matched [] ⟨'*' :: '/' :: rest, p + bytes ['/', '*'] + bytes body⟩) := by
    refine .until tight (fun y post suffix p => .noText ?_) fun p => ⟨_, _, closed p _⟩
    refine Option.eq_none_iff_forall_ne_some.2 fun d stripped => first ?_
    -- the closing mark would have to stand in the comment itself
    cases post with
    | nil => simp [stripText?] at stripped
    | cons z post =>
      by_cases same : y = '*' ∧ z = '/'
      · obtain ⟨rfl, rfl⟩ := same
        exact (List.prefix_append ['*', '/'] post).isInfix.trans suffix.isInfix
      · rw [show "*/".toList = ['*', '/'] from rfl] at stripped
        simp only [stripText?, List.cons_append] at stripped
        grind
  have both := Derives.seq opened (.noGap tight) (.seq inside (.noGap tight) (closed _ ctx))
  rw [Nat.add_assoc, ← bytes_append, Nat.add_assoc, ← bytes_append] at both
  exact both

/-- Layout before a place is skipped together with the layout after it. -/
theorem derives_layout {g : RuleSet Rule} {w : List Char} (text : Layout w)
    (tight : ctx.spacing ≠ .free)
    (skipped : Derives g ctx (.expr layout) ⟨rest, p + bytes w⟩ (.matched nodes d)) :
    Derives g ctx (.expr layout) ⟨w ++ rest, p⟩ (.matched nodes d) := by
  have slash (p : Nat) (rest : List Char) :
      Derives g ctx (.expr (.char .blank)) ⟨'/' :: rest, p⟩ .refused :=
    .noChar (by decide)
  induction text generalizing p with
  | nil => simpa using skipped
  | @blank x w holds _ ih =>
    rw [bytes_cons, ← Nat.add_assoc] at skipped
    have unit : Derives g ctx (.expr (alts [.char .blank, lineComment, blockComment]))
      ⟨x :: w ++ rest, p⟩
        (.matched [] ⟨w ++ rest, p + x.utf8Size⟩) := .left (.char holds)
    exact unit.star_cons tight (ih skipped)
  | @line body w x noFeed noReturn ends _ ih =>
    -- the end of the line is a blank after the comment
    have last : Derives g ctx (.expr (alts [.char .blank, lineComment, blockComment]))
        ⟨x :: w ++ rest, p + bytes ('/' :: '/' :: body)⟩
        (.matched [] ⟨w ++ rest, p + bytes ('/' :: '/' :: body) + x.utf8Size⟩) :=
      .left (.char (by rcases ends with rfl | rfl <;> decide))
    have unit : Derives g ctx (.expr (alts [.char .blank, lineComment, blockComment]))
        ⟨'/' :: '/' :: body ++ x :: (w ++ rest), p⟩
        (.matched [] ⟨x :: (w ++ rest), p + bytes ('/' :: '/' :: body)⟩) :=
      .right (slash ..) (.left (derives_line tight noFeed noReturn ends))
    rw [List.append_assoc, List.cons_append]
    refine unit.star_cons tight (last.star_cons tight (ih ?_))
    rwa [bytes_append, bytes_cons x, ← Nat.add_assoc, ← Nat.add_assoc] at skipped
  | @block body w first _ ih =>
    have unit : Derives g ctx (.expr (alts [.char .blank, lineComment, blockComment]))
        ⟨'/' :: '*' :: body ++ '*' :: '/' :: (w ++ rest), p⟩
        (.matched [] ⟨w ++ rest, p + bytes ('/' :: '*' :: body ++ ['*', '/'])⟩) := by
      refine .right (slash ..) (.right (.seqFirst (.noText ?_)) (derives_block tight first))
      simp [stripText?]
    rw [List.append_assoc, List.cons_append, List.cons_append]
    refine unit.star_cons tight (ih ?_)
    rw [show '/' :: '*' :: body ++ '*' :: '/' :: w = ('/' :: '*' :: body ++ ['*', '/']) ++
      w by simp, bytes_append, ← Nat.add_assoc] at skipped
    exact skipped

end Skipping

/-! ### Programs -/

/-- The rules that do not ask for the start of the text. -/
def isPlaceless : Rule → Bool
  | .program => false
  | _ => true

theorem placeless_body (r : Rule) (inside : isPlaceless r = true) :
    (script.define r).body.placeless isPlaceless = true := by
  cases r with
  | program => cases inside
  | assignOp op => cases op <;> rfl
  | _ => rfl

/-- The node of a program with `d` more bytes of layout in front. -/
def Node.behind (d : Nat) (n : Node Rule) : Node Rule :=
  ⟨n.rule, ⟨n.span.start, n.span.stop + d⟩, n.text, shiftNodes d n.children⟩

def Result.behind (d : Nat) : Result Rule → Result Rule
  | .matched nodes c => .matched (nodes.map (Node.behind d)) (c.shift d)
  | .refused => .refused

theorem derives_program {w s : List Char} (text : Layout w) {r : Result Rule}
    (derives : Derives script ⟨.free, .nowhere⟩ (.expr (.rule .program)) ⟨s, 0⟩ r) :
    Derives script ⟨.free, .nowhere⟩ (.expr (.rule .program)) ⟨w ++ s, 0⟩ (r.behind (bytes w)) := by
  have shifts {ctx : Context} {j : Job Rule} {c : Cursor} {r : Result Rule}
      (placeless : j.placeless isPlaceless = true) (derives : Derives script ctx j c r) :
      Derives script ctx j (c.shift (bytes w)) (r.shift (bytes w)) :=
    derives.shift rfl placeless_body (bytes w) placeless
  have skips {r : Result Rule} (skipped : Derives script ⟨.free, .nowhere⟩ .gap ⟨s, 0⟩ r) :
      Derives script ⟨.free, .nowhere⟩ .gap ⟨w ++ s, 0⟩ (r.shift (bytes w)) := by
    cases skipped with
    | gap free body =>
      cases r with
      | matched nodes d => exact .gap free (derives_layout text (by decide) (shifts rfl body))
      | refused => cases body
    | noGap bound => exact absurd rfl bound
  have body {r : Result Rule}
      (derives : Derives script ⟨.free, .nowhere⟩ (.expr (script.define .program).body) ⟨s, 0⟩ r) :
      Derives script ⟨.free, .nowhere⟩ (.expr (script.define .program).body) ⟨w ++ s, 0⟩
        (r.shift (bytes w)) := by
    cases derives with
    | seq first gap second =>
      cases first with
      | start => exact .seq (.start rfl) (skips gap) (shifts rfl second)
    | seqFirst first => cases first with
      | noStart there => exact absurd rfl there
    | seqGap first gap =>
      cases first with
      | start => exact .seqGap (.start rfl) (skips gap)
    | seqSecond first gap second =>
      cases first with
      | start => exact .seqSecond (.start rfl) (skips gap) (shifts rfl second)
  cases derives with
  | silent hidden => cases hidden
  | rule given inside =>
    exact @Derives.rule _ script ⟨.free, .nowhere⟩ .program ⟨w ++ s, 0⟩ _ _ given (body inside)
  | noRule given inside =>
    exact @Derives.noRule _ script ⟨.free, .nowhere⟩ .program ⟨w ++ s, 0⟩ given (body inside)

/-- A program after layout is matched as it is alone. -/
theorem parse_shift {w : String} (text : Layout w.toList) (s : String) :
    (script.parse .program (w ++ s)).result? =
      (script.parse .program s).result?.map (Result.behind w.utf8ByteSize) := by
  have ended (s : String) : ∃ r, (script.parse .program s).result? = some r := by
    have ends := RuleSet.parse_ends bounds_script (r := .program) (by decide) s
    cases matched : script.parse .program s with
    | matched nodes d t => exact ⟨_, rfl⟩
    | refused t => exact ⟨_, rfl⟩
    | exhausted => exact absurd matched ends
  obtain ⟨r, alone⟩ := ended s
  obtain ⟨r', behind⟩ := ended (w ++ s)
  have moved := derives_program text (RuleSet.run_derives alone)
  have there := RuleSet.run_derives behind
  rw [String.toList_append] at there
  rw [alone, behind, Option.map_some, there.unique moved, bytes_toList]

end Grammar

end Scriptlet
