import Scriptlet.Grammar.Rules
import Scriptlet.Proofs.Grammar.Extent
import Scriptlet.Proofs.Grammar.Shift

/-!
Raw texts of literals.

A raw text is a sequence of characters that stand for themselves and of escapes, each of them a
backslash with the next character or line end. Main statement: in front of what closes the literal,
the grammar takes a raw text as one token.
-/

namespace Scriptlet.Tree

open Grammar

/-- The literals with a raw text: strings in quotes of two kinds, and the chunks of a template. -/
inductive Literal where
  | double
  | single
  | template
  deriving DecidableEq, Repr

namespace Literal

/-- Whether a character can stand for itself in a literal, in front of a text. -/
def Plain (form : Literal) (c : Char) (after : List Char) : Prop :=
  match form with
  | .double => c ∉ ['"', '\\', '\n', '\r']
  | .single => c ∉ ['\x27', '\\', '\n', '\r']
  | .template => c ∉ ['\x60', '\\'] ∧ ¬(c = '$' ∧ after.head? = some '\x7b')

/-- The raw texts of a literal. -/
inductive Holds (form : Literal) : List Char → Prop where
  | nil : Holds form []
  | plain {c : Char} {after : List Char} : form.Plain c after → Holds form after →
      Holds form (c :: after)
  | escape {c : Char} {after : List Char} : (c = '\r' → after.head? ≠ some '\n') →
      Holds form after → Holds form ('\\' :: c :: after)
  | lineEnd {after : List Char} : Holds form after → Holds form ('\\' :: '\r' :: '\n' :: after)

/-- Whether a raw text ends in front of the given one. -/
def Closes (form : Literal) (rest : List Char) : Prop :=
  match form with
  | .double => ['"'] <+: rest
  | .single => ['\x27'] <+: rest
  | .template => ['\x60'] <+: rest ∨ ['$', '\x7b'] <+: rest

/-- The rule whose token is the raw text. -/
def rule : Literal → Rule
  | .double => .doubleChars
  | .single => .singleChars
  | .template => .templateChars

/-- A raw text is one token in front of what closes the literal. -/
def Takes (form : Literal) (raw : String) : Prop :=
  ∀ (rest : List Char) (pos : Nat), form.Closes rest →
    Derives script ⟨.joined, .nowhere⟩ (.expr (.rule form.rule)) ⟨raw.toList ++ rest, pos⟩
      (.matched [⟨form.rule, ⟨pos, pos + raw.utf8ByteSize⟩, raw, []⟩]
        ⟨rest, pos + raw.utf8ByteSize⟩)

/-- The texts at which no character stands for itself. -/
def stops : Literal → List String
  | .double => ["\"", "\\", "\n", "\r"]
  | .single => ["'", "\\", "\n", "\r"]
  | .template => ["\x60", "\\", "$\x7b"]

/-- What a token repeats. -/
def item (form : Literal) : Peg Rule :=
  .alt (.rule .escape) (except (alts (form.stops.map lit)))

variable {form : Literal} {c : Char} {after ds rest text : List Char} {ctx : Context}
  {cursor : Cursor}
  {pos : Nat}

theorem ne_backslash_of_plain (plain : form.Plain c after) : c ≠ '\\' := by
  rintro rfl
  cases form <;> simp [Plain] at plain

/-- The characters that do not stand for themselves everywhere. -/
def marks : List Char :=
  ['"', '\x27', '\x60', '\\', '\n', '\r', '$']

theorem plain_of_not_mem (ordinary : c ∉ marks) (after : List Char) : form.Plain c after := by
  simp only [marks, List.mem_cons, List.not_mem_nil, or_false, not_or] at ordinary
  cases form <;> simp [Plain, ordinary]

theorem plain_hexDigit (digit : CharClass.hexDigit.holds c = true) (after : List Char) :
    form.Plain c after := by
  have none : marks.all (fun x => !CharClass.hexDigit.holds x) = true := rfl
  refine plain_of_not_mem (fun member => ?_) after
  simpa [digit] using List.all_eq_true.1 none c member

theorem Holds.append (plain : ∀ c ∈ ds, ∀ after, form.Plain c after) (holds : form.Holds after) :
    form.Holds (ds ++ after) := by
  induction ds with
  | nil => exact holds
  | cons c ds ih =>
    obtain ⟨first, others⟩ := List.forall_mem_cons.1 plain
    exact .plain (first _) (ih others)

/-- What closes a literal is no part of an escape or of what closes a template. -/
theorem Closes.head?_ne (closes : form.Closes rest) {x : Char} (inside : x ∈ ['\\', '\n', '\x7b']) :
    rest.head? ≠ some x := by
  have quote {q : Char} {qs : List Char} (starts : q :: qs <+: rest)
      (other : q ∉ ['\\', '\n', '\x7b']) :
      rest.head? ≠ some x := by
    obtain ⟨more, rfl⟩ := starts
    rintro ⟨⟩
    exact other inside
  cases form with
  | double => exact quote closes (by decide)
  | single => exact quote closes (by decide)
  | template => exact closes.elim (quote · (by decide)) (quote · (by decide))

/-- The first character of a text that is continued. -/
theorem head?_append_ne {x : Char} (first : after.head? ≠ some x) (next : rest.head? ≠ some x) :
    (after ++ rest).head? ≠ some x := by
  cases after with
  | nil => exact next
  | cons => exact first

theorem Closes.plain (closes : form.Closes rest) (plain : form.Plain c after) :
    form.Plain c (after ++ rest) := by
  cases form with
  | double => exact plain
  | single => exact plain
  | template =>
    refine ⟨plain.1, fun ⟨dollar, brace⟩ => ?_⟩
    refine head?_append_ne ?_ (closes.head?_ne (by simp)) brace
    exact fun brace => plain.2 ⟨dollar, brace⟩

/-! ### Single items -/

/-- Where one of the texts stands, one of them is taken. -/
theorem derives_alts {stops : List String} {s : String} (member : s ∈ stops)
    (starts : s.toList <+: cursor.rest) :
    ∃ nodes d, Derives script ctx (.expr (alts (stops.map lit))) cursor (.matched nodes d) := by
  induction stops with
  | nil => cases member
  | cons t stops ih =>
    have here {d : Cursor} (stripped : stripText? t.toList cursor = some d) :
        Derives script ctx (.expr (lit t)) cursor (.matched [] d) := .text stripped
    cases stripped : stripText? t.toList cursor with
    | some d =>
      cases stops with
      | nil => exact ⟨_, _, here stripped⟩
      | cons => exact ⟨_, _, .left (here stripped)⟩
    | none =>
      obtain rfl | member := List.mem_cons.1 member
      · obtain ⟨more, append⟩ := starts
        have found := stripText?_append s.toList more cursor.pos
        rw [append] at found
        cases stripped.symm.trans found
      · cases stops with
        | nil => cases member
        | cons =>
          obtain ⟨nodes, d, later⟩ := ih member
          exact ⟨nodes, d, .right (.noText stripped) later⟩

theorem refused_alts {stops : List String} (none : ∀ s ∈ stops, stripText? s.toList cursor = none) :
    Derives script ctx (.expr (alts (stops.map lit))) cursor .refused := by
  induction stops with
  | nil => exact .notNone (.text rfl)
  | cons s stops ih =>
    obtain ⟨first, others⟩ := List.forall_mem_cons.1 none
    cases stops with
    | nil => exact .noText first
    | cons => exact .right (.noText first) (ih others)

theorem derives_escape (tight : ctx.spacing ≠ .free) (line : c = '\r' → after.head? ≠ some '\n') :
    Derives script ctx (.expr (.rule .escape)) ⟨'\\' :: c :: after, pos⟩
      (.matched [] ⟨after, pos + bytes ['\\', c]⟩) := by
  have single : stripText? "\r\n".toList ⟨c :: after, pos + bytes ['\\']⟩ = none := by
    cases after with
    | nil => simp [stripText?]
    | cons d after =>
      have line : c = '\r' → d ≠ '\n' := fun cr feed => line cr (congrArg some feed)
      simp only [String.reduceToList, stripText?]
      grind
  have letter : Derives script ctx (.expr (alts [lit "\r\n", .char .any]))
    ⟨c :: after, pos + bytes ['\\']⟩
      (.matched [] ⟨after, pos + bytes ['\\'] + c.utf8Size⟩) := .right (.noText single) (.char rfl)
  have both := Derives.seq (.text (stripText?_append ['\\'] (c :: after) pos)) (.noGap tight) letter
  have size : bytes ['\\'] + c.utf8Size = bytes ['\\', c] := by simp
  rw [Nat.add_assoc, size] at both
  exact .silent rfl both

theorem derives_lineEnd (tight : ctx.spacing ≠ .free) :
    Derives script ctx (.expr (.rule .escape)) ⟨'\\' :: '\r' :: '\n' :: after, pos⟩
      (.matched [] ⟨after, pos + bytes ['\\', '\r', '\n']⟩) := by
  have ended : Derives script ctx (.expr (alts [lit "\r\n", .char .any]))
      ⟨'\r' :: '\n' :: after, pos + bytes ['\\']⟩
      (.matched [] ⟨after, pos + bytes ['\\'] + bytes ['\r', '\n']⟩) :=
    .left (.text (stripText?_append ['\r', '\n'] after _))
  have both :=
    Derives.seq (.text (stripText?_append ['\\'] ('\r' :: '\n' :: after) pos)) (.noGap tight) ended
  rw [Nat.add_assoc, ← bytes_append] at both
  exact .silent rfl both

theorem refused_escape (other : rest.head? ≠ some '\\') :
    Derives script ctx (.expr (.rule .escape)) ⟨rest, pos⟩ .refused := by
  refine .silent rfl (.seqFirst (.noText ?_))
  cases rest with
  | nil => rfl
  | cons x rest =>
    exact if_neg fun same => other (congrArg some same.symm)

/-- No stop stands where a character stands for itself. -/
theorem stripText?_of_plain (plain : form.Plain c after) (pos : Nat) :
    ∀ s ∈ form.stops, stripText? s.toList ⟨c :: after, pos⟩ = none := by
  have other {x : Char} (ne : c ≠ x) (xs : List Char) :
      stripText? (x :: xs) ⟨c :: after, pos⟩ = none :=
    if_neg ne.symm
  cases form with
  | double =>
    simp only [Plain, List.mem_cons, List.not_mem_nil, or_false, not_or] at plain
    simp [stops, other plain.1, other plain.2.1, other plain.2.2.1, other plain.2.2.2]
  | single =>
    simp only [Plain, List.mem_cons, List.not_mem_nil, or_false, not_or] at plain
    simp [stops, other plain.1, other plain.2.1, other plain.2.2.1, other plain.2.2.2]
  | template =>
    simp only [Plain, List.mem_cons, List.not_mem_nil, or_false, not_or] at plain
    have dollar : stripText? ['$', '\x7b'] ⟨c :: after, pos⟩ = none := by
      by_cases same : '$' = c
      · cases after with
        | nil => simp [stripText?]
        | cons d after =>
          have ne : '\x7b' ≠ d := fun brace => plain.2 ⟨same.symm, congrArg some brace.symm⟩
          simp [stripText?, ne]
      · exact if_neg same
    simp [stops, other plain.1.1, other plain.1.2, dollar]

theorem derives_plain (tight : ctx.spacing ≠ .free) (plain : form.Plain c after) :
    Derives script ctx (.expr form.item) ⟨c :: after, pos⟩
      (.matched [] ⟨after, pos + c.utf8Size⟩) := by
  have stopped :
      Derives script ctx.flipped (.expr (alts (form.stops.map lit))) ⟨c :: after, pos⟩ .refused :=
    refused_alts (stripText?_of_plain plain pos)
  have escape : Derives script ctx (.expr (.rule .escape)) ⟨c :: after, pos⟩ .refused :=
    refused_escape fun first => ne_backslash_of_plain plain (Option.some.inj first)
  exact .right escape (.seq (.not stopped) (.noGap tight) (.char rfl))

theorem refused_item (closes : form.Closes rest) :
    Derives script ctx (.expr form.item) ⟨rest, pos⟩ .refused := by
  have stopped : ∃ s ∈ form.stops, s.toList <+: rest := by
    cases form with
    | double => exact ⟨_, List.mem_cons_self, closes⟩
    | single => exact ⟨_, List.mem_cons_self, closes⟩
    | template =>
      rcases closes with quote | dollar
      · exact ⟨_, List.mem_cons_self, quote⟩
      · exact ⟨"$\x7b", by simp [stops], dollar⟩
  obtain ⟨s, member, starts⟩ := stopped
  have stop : ∃ nodes d, Derives script ctx.flipped (.expr (alts (form.stops.map lit))) ⟨rest, pos⟩
      (.matched nodes d) := derives_alts member starts
  obtain ⟨nodes, d, matched⟩ := stop
  exact .right (refused_escape (closes.head?_ne (by simp))) (.seqFirst (.notNone matched))

/-! ### The token -/

theorem derives_star (tight : ctx.spacing ≠ .free) (closes : form.Closes rest)
    (holds : form.Holds text)
    (pos : Nat) : Derives script ctx (.expr (.star form.item)) ⟨text ++ rest, pos⟩
      (.matched [] ⟨rest, pos + bytes text⟩) := by
  induction holds generalizing pos with
  | nil => exact .starNone (refused_item closes)
  | plain plain _ ih =>
    rw [bytes_cons, ← Nat.add_assoc]
    exact (derives_plain tight (closes.plain plain)).star_cons tight (ih _)
  | @escape c after line _ ih =>
    have escape : Derives script ctx (.expr form.item) ⟨'\\' :: c :: (after ++ rest), pos⟩
        (.matched [] ⟨after ++ rest, pos + bytes ['\\', c]⟩) := by
      refine .left (derives_escape tight fun cr => ?_)
      exact head?_append_ne (line cr) (closes.head?_ne (by simp))
    have onward := escape.star_cons tight (ih _)
    rwa [Nat.add_assoc, ← bytes_append] at onward
  | @lineEnd after _ ih =>
    have escape : Derives script ctx (.expr form.item)
      ⟨'\\' :: '\r' :: '\n' :: (after ++ rest), pos⟩
        (.matched [] ⟨after ++ rest, pos + bytes ['\\', '\r', '\n']⟩) :=
          .left (derives_lineEnd tight)
    have onward := escape.star_cons tight (ih _)
    rwa [Nat.add_assoc, ← bytes_append] at onward

/-- Where nothing is skipped, a repetition that takes something is one item and a repetition. -/
theorem derives_plus {e : Peg Rule} {nodes : List (Grammar.Node Rule)} {d : Cursor}
    (tight : ctx.spacing ≠ .free) (moved : cursor ≠ d)
    (star : Derives script ctx (.expr (.star e)) cursor (.matched nodes d)) :
    Derives script ctx (.expr (plus e)) cursor (.matched nodes d) := by
  cases star with
  | star first others =>
    refine .seq first (.noGap tight) ?_
    cases others with
    | more gap next others =>
      cases gap with
      | gap free => exact absurd free tight
      | noGap => exact .star next others
    | moreEnd gap next =>
      cases gap with
      | gap free => exact absurd free tight
      | noGap => exact .starNone next
    | moreGap gap =>
      cases gap with
      | gap free => exact absurd free tight
  | starNone => exact absurd rfl moved

/-- In front of what closes the literal, the grammar takes a raw text as one token. -/
theorem takes_of_holds {raw : String} (holds : form.Holds raw.toList)
    (given : form = .template → raw ≠ "") : form.Takes raw := by
  intro rest pos closes
  have star : Derives script ⟨.solid, .nowhere⟩ (.expr (.star form.item)) ⟨raw.toList ++ rest, pos⟩
      (.matched [] ⟨rest, pos + bytes raw.toList⟩) := derives_star (by decide) closes holds pos
  have body : Derives script ⟨.solid, .nowhere⟩ (.expr (script.define form.rule).body)
      ⟨raw.toList ++ rest, pos⟩ (.matched [] ⟨rest, pos + bytes raw.toList⟩) := by
    cases form with
    | double => exact star
    | single => exact star
    | template =>
      refine derives_plus (by decide) (fun same => given rfl ?_) star
      simpa using congrArg Cursor.rest same
  have token : (script.define form.rule).kind = .token := by cases form <;> rfl
  have node :
      Derives script ⟨.joined, .nowhere⟩ (.expr (.rule form.rule)) ⟨raw.toList ++ rest, pos⟩ _ :=
    .rule (by simp [token]) (by rw [token]; exact body)
  have text : takeBytes raw.utf8ByteSize (raw.toList ++ rest) = raw.toList := by
    rw [← bytes_toList]
    exact takeBytes_append raw.toList rest
  rw [token, bytes_toList] at node
  simpa [RuleKind.enclose, RuleKind.outer, text] using node

end Literal

end Scriptlet.Tree
