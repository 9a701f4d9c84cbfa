import Mathlib.Logic.Basic
import Scriptlet.Grammar.Peg

/-!
Where the nodes of a match lie in the text.

Main statement: whatever a rule matches, the nodes of the match consist of whole characters, follow
each other in the order of the text, each holds its children in that order, and the rules of the
children are ones that the body of the rule admits. Matching never looks beyond the end of the text.
-/

namespace Scriptlet

/-! ### Spans in a row -/

/-- A span of whole characters of a text. -/
structure Span.Within (source : String) (s : Span) : Prop where
  ordered : s.start ≤ s.stop
  start : String.Pos.Raw.IsValid source ⟨s.start⟩
  stop : String.Pos.Raw.IsValid source ⟨s.stop⟩

theorem Span.Within.stop_le {source : String} {s : Span} (within : s.Within source) :
    s.stop ≤ source.utf8ByteSize :=
  within.stop.le_rawEndPos

/-- Spans that follow each other between two places. -/
def Span.Chain : Nat → List Span → Nat → Prop
  | low, [], high => low ≤ high
  | low, s :: rest, high => low ≤ s.start ∧ s.start ≤ s.stop ∧ Chain s.stop rest high

namespace Span.Chain

variable {low mid high : Nat} {ss ts : List Span}

theorem le (chain : Chain low ss high) : low ≤ high := by
  induction ss generalizing low with
  | nil => exact chain
  | cons s rest ih =>
    obtain ⟨before, ordered, after⟩ := chain
    exact Nat.le_trans before (Nat.le_trans ordered (ih after))

theorem from_le {low' : Nat} (before : low' ≤ low) (chain : Chain low ss high) :
    Chain low' ss high := by
  cases ss with
  | nil => exact Nat.le_trans before chain
  | cons s rest => exact ⟨Nat.le_trans before chain.1, chain.2⟩

theorem append (first : Chain low ss mid) (second : Chain mid ts high) :
    Chain low (ss ++ ts) high := by
  induction ss generalizing low with
  | nil => exact second.from_le first
  | cons s rest ih => exact ⟨first.1, first.2.1, ih first.2.2⟩

theorem to_le {high' : Nat} (chain : Chain low ss high) (after : high ≤ high') :
    Chain low ss high' := by
  simpa using chain.append (show Chain high [] high' from after)

theorem inside (chain : Chain low ss high) {s : Span} (member : s ∈ ss) :
    low ≤ s.start ∧ s.stop ≤ high := by
  induction ss generalizing low with
  | nil => cases member
  | cons t rest ih =>
    obtain ⟨before, ordered, after⟩ := chain
    rcases List.mem_cons.1 member with rfl | member
    · exact ⟨before, after.le⟩
    · have := ih after member
      omega

theorem pairwise (chain : Chain low ss high) : ss.Pairwise fun s t => s.stop ≤ t.start := by
  induction ss generalizing low with
  | nil => exact .nil
  | cons s rest ih => exact .cons (fun t member => (chain.2.2.inside member).1) (ih chain.2.2)

end Span.Chain

namespace Grammar

/-! ### Cursors -/

/-- The bytes that characters take up. -/
def bytes (cs : List Char) : Nat :=
  (String.ofList cs).utf8ByteSize

@[simp] theorem bytes_nil : bytes [] = 0 := by
  simp [bytes]

@[simp] theorem bytes_cons (c : Char) (cs : List Char) :
    bytes (c :: cs) = c.utf8Size + bytes cs := by
  simp [bytes, String.ofList_cons]

@[simp] theorem bytes_append (cs ds : List Char) : bytes (cs ++ ds) = bytes cs + bytes ds := by
  simp [bytes, String.ofList_append]

@[simp] theorem bytes_toList (s : String) : bytes s.toList = s.utf8ByteSize := by
  simp [bytes]

theorem takeBytes_append (cs ds : List Char) : takeBytes (bytes cs) (cs ++ ds) = cs := by
  induction cs with
  | nil => simp [takeBytes]
  | cons c cs ih =>
    obtain ⟨n, size⟩ : ∃ n, bytes (c :: cs) = n + 1 :=
      Nat.exists_eq_add_one.2 (by have := c.utf8Size_pos; simp only [bytes_cons]; omega)
    have rest : n + 1 - c.utf8Size = bytes cs := by
      rw [← size, bytes_cons]
      omega
    rw [size, List.cons_append, takeBytes, rest, ih]

/-- The second cursor is reached from the first by reading characters. -/
def Cursor.Advances (c d : Cursor) : Prop :=
  ∃ cs, c.rest = cs ++ d.rest ∧ d.pos = c.pos + bytes cs

namespace Cursor.Advances

variable {c d e : Cursor}

theorem refl (c : Cursor) : c.Advances c :=
  ⟨[], by simp⟩

theorem trans (first : c.Advances d) (second : d.Advances e) : c.Advances e := by
  obtain ⟨cs, rest, pos⟩ := first
  obtain ⟨ds, rest', pos'⟩ := second
  exact ⟨cs ++ ds, by simp [rest, rest'], by simp [pos, pos', Nat.add_assoc]⟩

theorem char {x : Char} {rest : List Char} (same : c.rest = x :: rest) :
    c.Advances ⟨rest, c.pos + x.utf8Size⟩ :=
  ⟨[x], by simp [same], by simp⟩

theorem le (advances : c.Advances d) : c.pos ≤ d.pos := by
  obtain ⟨cs, -, pos⟩ := advances
  omega

/-- The text between two cursors, cut out of what was ahead. -/
theorem bytes_between (advances : c.Advances d) :
    bytes (takeBytes (d.pos - c.pos) c.rest) = d.pos - c.pos := by
  obtain ⟨cs, rest, pos⟩ := advances
  have between : d.pos - c.pos = bytes cs := by omega
  rw [between, rest, takeBytes_append]

end Cursor.Advances

theorem stripText?_advances {cs : List Char} {c d : Cursor} (stripped : stripText? cs c = some d) :
    c.Advances d := by
  induction cs generalizing c with
  | nil =>
    cases stripped
    exact .refl _
  | cons x xs ih =>
    unfold stripText? at stripped
    split at stripped
    · rename_i y rest ahead
      split at stripped
      · exact (Cursor.Advances.char ahead).trans (ih stripped)
      · cases stripped
    · cases stripped

/-- A cursor in a text, with its beginning behind. -/
def Cursor.Reads (source : String) (c : Cursor) : Prop :=
  (Cursor.mk source.toList 0).Advances c

theorem Cursor.Reads.isValid {source : String} {c : Cursor} (reads : c.Reads source) :
    String.Pos.Raw.IsValid source ⟨c.pos⟩ := by
  obtain ⟨cs, rest, pos⟩ := reads
  refine String.Pos.Raw.isValid_iff_exists_append.2 ⟨.ofList cs, .ofList c.rest, ?_, ?_⟩
  · rw [← String.ofList_append, ← rest, String.ofList_toList]
  · simp only [Nat.zero_add] at pos
    rw [pos]
    rfl

theorem Cursor.Reads.le {source : String} {c : Cursor} (reads : c.Reads source) :
    c.pos ≤ source.utf8ByteSize :=
  reads.isValid.le_rawEndPos

theorem Cursor.Reads.within {source : String} {c d : Cursor} (reads : c.Reads source)
    (advances : c.Advances d) : (Span.mk c.pos d.pos).Within source :=
  ⟨advances.le, reads.isValid, Cursor.Reads.isValid (Cursor.Advances.trans reads advances)⟩

/-! ### The rules that an expression admits -/

variable {R : Type}

/-- The rules of the nodes that a match of an expression may give, where rules give nodes. -/
inductive Peg.Admits (g : RuleSet R) : Peg R → List R → Prop where
  | text (cs : List Char) : Admits g (.text cs) []
  | char (k : CharClass) : Admits g (.char k) []
  | start : Admits g .start []
  | finish : Admits g .finish []
  | not (e : Peg R) : Admits g (.not e) []
  | absent (e : Peg R) : Admits g (.opt e) []
  | present {e : Peg R} {rs : List R} : Admits g e rs → Admits g (.opt e) rs
  | left {a b : Peg R} {rs : List R} : Admits g a rs → Admits g (.alt a b) rs
  | right {a b : Peg R} {rs : List R} : Admits g b rs → Admits g (.alt a b) rs
  | seq {a b : Peg R} {rs ss : List R} :
      Admits g a rs → Admits g b ss → Admits g (.seq a b) (rs ++ ss)
  | none (e : Peg R) : Admits g (.star e) []
  | more {e : Peg R} {rs ss : List R} : Admits g (.star e) rs → Admits g e ss →
      Admits g (.star e) (rs ++ ss)
  | node {r : R} : (g.define r).kind ≠ .silent → Admits g (.rule r) [r]
  | silent {r : R} {rs : List R} : (g.define r).kind = .silent → Admits g (g.define r).body rs →
      Admits g (.rule r) rs

namespace Peg

variable {g : RuleSet R} {a b : Peg R} {r : R} {rs : List R}

theorem admits_seq : Admits g (.seq a b) rs ↔ ∃ first second, rs = first ++ second ∧
    Admits g a first ∧ Admits g b second := by
  refine ⟨fun admits => ?_, ?_⟩
  · cases admits with
    | seq first second => exact ⟨_, _, rfl, first, second⟩
  · rintro ⟨first, second, rfl, one, two⟩
    exact .seq one two

theorem admits_opt : Admits g (.opt a) rs ↔ rs = [] ∨ Admits g a rs := by
  refine ⟨fun admits => ?_, ?_⟩
  · cases admits with
    | absent => exact .inl rfl
    | present inside => exact .inr inside
  · rintro (rfl | inside)
    · exact .absent a
    · exact .present inside

theorem admits_rule (given : (g.define r).kind ≠ .silent) : Admits g (.rule r) rs ↔ rs = [r] := by
  refine ⟨fun admits => ?_, ?_⟩
  · cases admits with
    | node => rfl
    | silent hidden => exact absurd hidden given
  · rintro rfl
    exact .node given

end Peg

/-! ### The nodes of a match -/

/-- A node of whole characters that holds its text and, in order, its children; so do these. -/
inductive Node.Lies (g : RuleSet R) (source : String) : Node R → Prop where
  | intro {n : Node R} : n.span.Within source → n.span.start + n.text.utf8ByteSize ≤ n.span.stop →
      Span.Chain n.span.start (n.children.map Node.span) n.span.stop →
      ((g.define n.rule).kind ≠ .token →
        (g.define n.rule).body.Admits g (n.children.map Node.rule)) →
      (∀ m ∈ n.children, Lies g source m) → Lies g source n

/-- Whether rules give nodes. -/
def Context.Shown (ctx : Context) : Prop :=
  ctx.looking = .nowhere ∧ ctx.spacing ≠ .solid

/-- What a match between two cursors gives; `admitted` tells of the rules of its nodes. -/
structure Matched (g : RuleSet R) (source : String) (admitted : List R → Prop) (c : Cursor)
    (nodes : List (Node R)) (d : Cursor) : Prop where
  advances : c.Advances d
  ordered : Span.Chain c.pos (nodes.map Node.span) d.pos
  lie : ∀ n ∈ nodes, n.Lies g source
  rules : admitted (nodes.map Node.rule)

/-- A trail that stays in the text. -/
def Trail.Inside (source : String) (t : Trail R) : Prop :=
  t.place ≤ source.utf8ByteSize

theorem Trail.Inside.record {source : String} {t : Trail R} {m : Mark} {pos : Nat}
    {looking : Looking}
    {r : R} (inside : t.Inside source) (reached : pos ≤ source.utf8ByteSize) :
    (t.record m pos looking r).Inside source := by
  unfold Trail.Inside at *
  unfold Trail.record
  grind

/-- How a match from a cursor may end. -/
def Outcome.Sound (source : String) (good : List (Node R) → Cursor → Prop) : Outcome R → Prop
  | .matched nodes d t => good nodes d ∧ t.Inside source
  | .refused t => t.Inside source
  | .exhausted => True

variable {g : RuleSet R} {source : String} {ctx : Context} {c d : Cursor} {t : Trail R}

namespace Matched

variable {admitted : List R → Prop} {nodes more : List (Node R)} {e : Cursor}

/-- Nothing is matched without reading on, or by reading characters alone. -/
theorem bare (advances : c.Advances d) (empty : admitted []) : Matched g source admitted c [] d :=
  ⟨advances, advances.le, by simp, empty⟩

theorem weaken {weaker : List R → Prop} (matched : Matched g source admitted c nodes d)
    (weaker_of : ∀ rs, admitted rs → weaker rs) : Matched g source weaker c nodes d :=
  ⟨matched.advances, matched.ordered, matched.lie, weaker_of _ matched.rules⟩

theorem reads (matched : Matched g source admitted c nodes d) (reads : c.Reads source) :
    d.Reads source :=
  Cursor.Advances.trans reads matched.advances

/-- The nodes of two matches, with layout between them. -/
theorem append {next joined : List R → Prop} {between : List (Node R)} {unseen : List R → Prop}
    {f : Cursor} (first : Matched g source admitted c nodes d)
    (gap : Matched g source unseen d between e) (second : Matched g source next e more f)
    (join : ∀ rs ss, admitted rs → next ss → joined (rs ++ ss)) :
    Matched g source joined c (nodes ++ more) f := by
  refine ⟨first.advances.trans (gap.advances.trans second.advances), ?_, ?_, ?_⟩
  · rw [List.map_append]
    exact first.ordered.append (second.ordered.from_le gap.advances.le)
  · exact List.forall_mem_append.2 ⟨first.lie, second.lie⟩
  · rw [List.map_append]
    exact join _ _ first.rules second.rules

/-- The node of a rule around the nodes of its body. -/
theorem node {r : R} (reads : c.Reads source)
    (body : Matched g source
      (fun rs => (g.define r).kind ≠ .token → (g.define r).body.Admits g rs) c
      nodes d)
    (single : admitted [r]) {text : String}
    (fits : text = if (g.define r).kind = .token then
      String.ofList (takeBytes (d.pos - c.pos) c.rest) else "") :
    Matched g source admitted c [⟨r, ⟨c.pos, d.pos⟩, text, nodes⟩] d := by
  refine ⟨body.advances, ⟨Nat.le_refl _, body.advances.le, Nat.le_refl _⟩, ?_, single⟩
  intro n member
  cases List.mem_singleton.1 member
  refine .intro (reads.within body.advances) ?_ body.ordered body.rules body.lie
  have size := body.advances.bytes_between
  have le := body.advances.le
  subst fits
  split
  · change c.pos + bytes _ ≤ d.pos
    omega
  · simpa using le

end Matched

theorem Outcome.Sound.weaken {o : Outcome R} {good better : List (Node R) → Cursor → Prop}
    (sound : o.Sound source good) (weaker : ∀ nodes d, good nodes d → better nodes d) :
    o.Sound source better := by
  cases o with
  | matched nodes d t => exact ⟨weaker nodes d sound.1, sound.2⟩
  | refused t => exact sound
  | exhausted => exact sound

namespace RuleSet

/-- A rule gives a node around those of its body, or gives them through. -/
theorem close_sound {r : R} {m : Mark} {o : Outcome R} (given : (g.define r).kind ≠ .silent)
    (reads : c.Reads source)
    (body : o.Sound source (Matched g source (fun rs =>
      Context.Shown { ctx with spacing := (g.define r).kind.inner ctx.spacing } →
        (g.define r).body.Admits g rs) c)) :
    (close r (g.define r).kind ctx c m o).Sound source
      (Matched g source (fun rs => ctx.Shown → (Peg.rule r).Admits g rs) c) := by
  cases o with
  | exhausted => trivial
  | refused t =>
    rw [close]
    split
    · exact Trail.Inside.record body reads.le
    · exact body
  | matched nodes d t =>
    obtain ⟨matched, inside⟩ := body
    have inside' :
        (if (g.define r).kind.outer ctx.spacing != .solid && ctx.looking == .unwanted then
        t.record m c.pos ctx.looking r else t).Inside source := by
      split
      · exact inside.record reads.le
      · exact inside
    rw [close]
    split
    · rename_i visible
      refine ⟨.node reads (matched.weaken fun rs admits shown => admits ?_) ?_ rfl, inside'⟩
      · -- Inside a rule that shows, only a token hides the rules.
        cases same : (g.define r).kind <;>
          simp_all [Context.Shown, RuleKind.inner, RuleKind.outer]
      · exact fun _ => .node given
    · rename_i hidden
      refine ⟨matched.weaken fun rs _ shown => absurd ?_ hidden, inside'⟩
      obtain ⟨nowhere, spacing⟩ := shown
      cases same : (g.define r).kind <;> simp_all [RuleKind.outer]

/-- What the matcher, the skipping of layout and the repetition give within a depth. -/
structure Matching (g : RuleSet R) (source : String) (depth : Nat) : Prop where
  run : ∀ e ctx c t, c.Reads source → t.Inside source →
    (run g depth e ctx c t).Sound source (Matched g source (fun rs => ctx.Shown → e.Admits g rs) c)
  skip : ∀ ctx c t, c.Reads source → t.Inside source →
    (skip g depth ctx c t).Sound source (Matched g source (fun _ => True) c)
  again : ∀ e ctx b nodes c t, b.Reads source → t.Inside source →
    Matched g source (fun rs => ctx.Shown → (Peg.star e).Admits g rs) b nodes c →
    (again g depth e ctx nodes c t).Sound source
      (Matched g source (fun rs => ctx.Shown → (Peg.star e).Admits g rs) b)

variable {depth : Nat}

theorem skip_sound (matching : Matching g source depth) (reads : c.Reads source)
    (inside : t.Inside source) :
    (skip g (depth + 1) ctx c t).Sound source (Matched g source (fun _ => True) c) := by
  rw [skip]
  split
  · exact (matching.run _ _ c t reads inside).weaken fun _ _ matched =>
      matched.weaken fun _ _ => trivial
  · exact ⟨.bare (.refl c) trivial, inside⟩

theorem again_sound {e : Peg R} {b : Cursor} {nodes : List (Node R)}
    (matching : Matching g source depth)
    (reads : b.Reads source) (inside : t.Inside source)
    (matched : Matched g source (fun rs => ctx.Shown → (Peg.star e).Admits g rs) b nodes c) :
    (again g (depth + 1) e ctx nodes c t).Sound source
      (Matched g source (fun rs => ctx.Shown → (Peg.star e).Admits g rs) b) := by
  rw [again]
  have gap := matching.skip ctx c t (matched.reads reads) inside
  cases skipped : skip g depth ctx c t with
  | exhausted => trivial
  | refused t =>
    rw [skipped] at gap
    exact ⟨matched, gap⟩
  | matched between ahead t =>
    rw [skipped] at gap
    have next := matching.run e ctx ahead t (gap.1.reads (matched.reads reads)) gap.2
    simp only
    cases ran : run g depth e ctx ahead t with
    | exhausted => trivial
    | refused t =>
      rw [ran] at next
      exact ⟨matched, next⟩
    | matched more d t =>
      rw [ran] at next
      refine matching.again e ctx b _ d t reads next.2 (matched.append gap.1 next.1 ?_)
      exact fun rs ss one two shown => .more (one shown) (two shown)

theorem seq_sound {a b : Peg R} (matching : Matching g source depth) (reads : c.Reads source)
    (inside : t.Inside source) :
    (run g (depth + 1) (.seq a b) ctx c t).Sound source
      (Matched g source (fun rs => ctx.Shown → (Peg.seq a b).Admits g rs) c) := by
  rw [run]
  have first := matching.run a ctx c t reads inside
  cases ran : run g depth a ctx c t with
  | exhausted => trivial
  | refused t =>
    rw [ran] at first
    exact first
  | matched nodes d t =>
    rw [ran] at first
    have gap := matching.skip ctx d t (first.1.reads reads) first.2
    simp only
    cases skipped : skip g depth ctx d t with
    | exhausted => trivial
    | refused t =>
      rw [skipped] at gap
      exact gap
    | matched between e t =>
      rw [skipped] at gap
      have second := matching.run b ctx e t (gap.1.reads (first.1.reads reads)) gap.2
      simp only
      cases ran' : run g depth b ctx e t with
      | exhausted => trivial
      | refused t =>
        rw [ran'] at second
        exact second
      | matched more f t =>
        rw [ran'] at second
        refine ⟨first.1.append gap.1 second.1 ?_, second.2⟩
        exact fun rs ss one two shown => .seq (one shown) (two shown)

theorem alt_sound {a b : Peg R} (matching : Matching g source depth) (reads : c.Reads source)
    (inside : t.Inside source) :
    (run g (depth + 1) (.alt a b) ctx c t).Sound source
      (Matched g source (fun rs => ctx.Shown → (Peg.alt a b).Admits g rs) c) := by
  rw [run]
  have first := matching.run a ctx c t reads inside
  cases ran : run g depth a ctx c t with
  | exhausted => trivial
  | refused t =>
    rw [ran] at first
    refine (matching.run b ctx c t reads first).weaken fun _ _ matched => matched.weaken ?_
    exact fun rs admits shown => .right (admits shown)
  | matched nodes d t =>
    rw [ran] at first
    exact ⟨first.1.weaken fun rs admits shown => .left (admits shown), first.2⟩

theorem rule_sound {r : R} (matching : Matching g source depth) (reads : c.Reads source)
    (inside : t.Inside source) :
    (run g (depth + 1) (.rule r) ctx c t).Sound source
      (Matched g source (fun rs => ctx.Shown → (Peg.rule r).Admits g rs) c) := by
  rw [run]
  split
  · rename_i silent
    refine (matching.run _ ctx c t reads inside).weaken fun _ _ matched => matched.weaken ?_
    exact fun rs admits shown => .silent silent (admits shown)
  · rename_i given
    exact close_sound (fun silent => given silent) reads (matching.run _ _ c t reads inside)

theorem run_sound (matching : Matching g source depth) (e : Peg R) (reads : c.Reads source)
    (inside : t.Inside source) :
    (run g (depth + 1) e ctx c t).Sound source
      (Matched g source (fun rs => ctx.Shown → e.Admits g rs) c) := by
  cases e with
  | text cs =>
    rw [run]
    split
    · exact ⟨.bare (stripText?_advances ‹_›) fun _ => .text cs, inside⟩
    · exact inside
  | char k =>
    rw [run]
    split
    · split
      · exact ⟨.bare (.char ‹_›) fun _ => .char k, inside⟩
      · exact inside
    · exact inside
  | start =>
    rw [run]
    split
    · exact ⟨.bare (.refl c) fun _ => .start, inside⟩
    · exact inside
  | finish =>
    rw [run]
    split
    · exact ⟨.bare (.refl c) fun _ => .finish, inside⟩
    · exact inside
  | opt e =>
    rw [run]
    have body := matching.run e ctx c t reads inside
    cases ran : run g depth e ctx c t with
    | exhausted => trivial
    | refused t =>
      rw [ran] at body
      exact ⟨.bare (.refl c) fun _ => .absent e, body⟩
    | matched nodes d t =>
      rw [ran] at body
      exact ⟨body.1.weaken fun rs admits shown => .present (admits shown), body.2⟩
  | not e =>
    rw [run]
    have body := matching.run e { ctx with looking := ctx.looking.flip } c t reads inside
    cases ran : run g depth e { ctx with looking := ctx.looking.flip } c t with
    | exhausted => trivial
    | refused t =>
      rw [ran] at body
      exact ⟨.bare (.refl c) fun _ => .not e, body⟩
    | matched nodes d t =>
      rw [ran] at body
      exact body.2
  | star e =>
    rw [run]
    have body := matching.run e ctx c t reads inside
    cases ran : run g depth e ctx c t with
    | exhausted => trivial
    | refused t =>
      rw [ran] at body
      exact ⟨.bare (.refl c) fun _ => .none e, body⟩
    | matched nodes d t =>
      rw [ran] at body
      refine matching.again e ctx c nodes d t reads body.2 (body.1.weaken fun rs admits shown => ?_)
      exact .more (.none e) (admits shown)
  | alt a b => exact alt_sound matching reads inside
  | seq a b => exact seq_sound matching reads inside
  | rule r => exact rule_sound matching reads inside

theorem matching (g : RuleSet R) (source : String) (depth : Nat) : Matching g source depth := by
  induction depth with
  | zero =>
    constructor
    · intros
      trivial
    · intros
      trivial
    · intros
      trivial
  | succ depth ih =>
    constructor
    · intro e ctx c t reads inside
      exact run_sound ih e reads inside
    · intro ctx c t reads inside
      exact skip_sound ih reads inside
    · intro e ctx b nodes c t reads inside matched
      exact again_sound ih reads inside matched

/-- What a rule makes of a whole text. -/
theorem parse_sound (g : RuleSet R) (r : R) (text : String) :
    (g.parse r text).Sound text (Matched g text ((Peg.rule r).Admits g) ⟨text.toList, 0⟩) := by
  refine ((matching g text _).run (.rule r) _ _ _ (.refl _) (Nat.zero_le _)).weaken ?_
  intro nodes d matched
  exact matched.weaken fun rs admits => admits ⟨rfl, nofun⟩

end RuleSet

end Grammar

end Scriptlet
