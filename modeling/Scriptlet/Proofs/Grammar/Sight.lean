import Scriptlet.Proofs.Grammar.Reading

/-!
Refusals at first sight.

The first characters ahead often decide that an expression cannot match, or that it can match
nothing only. `Sight.peek` follows the grammar down to the words that would have to stand there;
`Sight.peek_sound` turns what it finds into facts about matches, so that each of them is a
computation.
-/

namespace Scriptlet.Grammar

variable {ctx : Context} {c : Cursor}

/-- What is seen of an expression without reading on. -/
inductive Peek where
  | refused
  | empty
  | unknown
  deriving DecidableEq, Repr

/-- What is known of a place: the literals and the classes of characters that may stand there, rules
whose matches are known, and whether there is no layout. -/
structure Sight where
  text : List Char → Bool
  char : CharClass → Bool
  known : Rule → Peek := fun _ => .unknown
  clean : Bool := true

namespace Peek

/-- What is seen holds of every match at the place. -/
def Holds (c : Cursor) (e : Peg Rule) : Peek → Prop
  | refused => ∀ {ctx r}, Derives script ctx (.expr e) c r → r = .refused
  | empty => ∀ {ctx r}, Derives script ctx (.expr e) c r → r = .matched [] c
  | unknown => True

/-- First one, then the other, which is at the same place if there is no layout. -/
def andThen (clean : Bool) : Peek → Peek → Peek
  | empty, second => if clean then second else unknown
  | first, _ => first

def orElse : Peek → Peek → Peek
  | refused, second => second
  | first, _ => first

/-- What may be missing. -/
def optional : Peek → Peek
  | refused => empty
  | _ => unknown

/-- What a rule makes of its body. A rule that is not silent gives a node. -/
def enclosed : RuleKind → Peek → Peek
  | .silent, p => p
  | _, refused => refused
  | _, _ => unknown

end Peek

namespace Sight

/-- What is seen of an expression, given what is seen of the rules. -/
def through (s : Sight) (rules : Rule → Peek) : Peg Rule → Peek
  | .text cs => if s.text cs then .unknown else .refused
  | .char k => if s.char k then .unknown else .refused
  | .rule r => rules r
  | .seq a b => (s.through rules a).andThen s.clean (s.through rules b)
  | .alt a b => (s.through rules a).orElse (s.through rules b)
  | .star e | .opt e | .not e => (s.through rules e).optional
  | .start | .finish => .unknown

/-- What is seen of a rule through the bodies of so many rules. -/
def rule (s : Sight) : Nat → Rule → Peek
  | 0, r => s.known r
  | n + 1, r =>
    match s.known r with
    | .unknown => (s.through (s.rule n) (script.define r).body).enclosed (script.define r).kind
    | seen => seen

/-- What is seen of an expression. From an expression down to a word it is not farther than fourteen
rules. -/
def peek (s : Sight) (e : Peg Rule) : Peek :=
  s.through (s.rule 14) e

/-- What is known is right. -/
structure Fits (s : Sight) (c : Cursor) : Prop where
  text : ∀ {cs}, cs <+: c.rest → s.text cs = true
  char : ∀ {k x rest}, c.rest = x :: rest → k.holds x = true → s.char k = true
  known : ∀ r, (s.known r).Holds c (.rule r)
  clean : s.clean = true → layoutUnit c.rest = none

end Sight

/-- Layout is skipped no further than to a place without layout. -/
theorem Cursor.skip_of_clean (clean : layoutUnit c.rest = none) : c.skip = c := by
  rw [Cursor.skip, Grammar.clean, Step.exhaust_of_none clean]
  simp

theorem gap_of_clean (clean : layoutUnit c.rest = none) {r : Result Rule}
    (gap : Derives script ctx .gap c r) :
    r = .matched [] c := by
  cases gap with
  | gap free layout =>
    rw [(Derives.gap free layout).unique (derives_skip free c), Cursor.skip_of_clean clean]
  | noGap => rfl

namespace Sight

variable {s : Sight} {rules : Rule → Peek} {a b e : Peg Rule}

theorem seq_holds {here : Bool} (clean : here = true → layoutUnit c.rest = none) {p q : Peek}
    (first : p.Holds c a) (second : q.Holds c b) : (p.andThen here q).Holds c (.seq a b) := by
  cases p with
  | unknown => trivial
  | refused =>
    intro ctx r derives
    cases derives with
    | seq one => cases first one
    | seqFirst => rfl
    | seqGap one => cases first one
    | seqSecond one => cases first one
  | empty =>
    rw [Peek.andThen]
    split
    next clear =>
      have clean := clean clear
      cases q with
      | unknown => trivial
      | refused =>
        intro ctx r derives
        cases derives with
        | seq one gap two =>
          cases first one
          cases gap_of_clean clean gap
          cases second two
        | seqFirst | seqGap | seqSecond => rfl
      | empty =>
        intro ctx r derives
        cases derives with
        | seq one gap two =>
          cases first one
          cases gap_of_clean clean gap
          cases second two
          rfl
        | seqFirst one => cases first one
        | seqGap one gap =>
          cases first one
          cases gap_of_clean clean gap
        | seqSecond one gap two =>
          cases first one
          cases gap_of_clean clean gap
          cases second two
    next => trivial

theorem alt_holds {p q : Peek} (first : p.Holds c a) (second : q.Holds c b) :
    (p.orElse q).Holds c (.alt a b) := by
  cases p with
  | unknown => trivial
  | refused =>
    cases q with
    | unknown => trivial
    | refused | empty =>
      intro ctx r derives
      cases derives with
      | left one => cases first one
      | right _ two => exact second two
  | empty =>
    intro ctx r derives
    cases derives with
    | left one => exact first one
    | right none => cases first none

theorem optional_holds {p : Peek} (inside : p.Holds c e) :
    p.optional.Holds c (.opt e) ∧ p.optional.Holds c (.star e) ∧ p.optional.Holds c (.not e) := by
  cases p with
  | unknown | empty => exact ⟨trivial, trivial, trivial⟩
  | refused =>
    refine ⟨fun derives => ?_, fun derives => ?_, fun derives => ?_⟩
    · cases derives with
      | opt one => cases inside one
      | optNone => rfl
    · cases derives with
      | star one => cases inside one
      | starNone => rfl
    · cases derives with
      | not => rfl
      | notNone one => cases inside one

theorem rule_holds {r : Rule} {p : Peek} (body : p.Holds c (script.define r).body) :
    (p.enclosed (script.define r).kind).Holds c (.rule r) := by
  by_cases hidden : (script.define r).kind = .silent
  · rw [hidden]
    cases p with
    | unknown => trivial
    | refused | empty =>
      intro ctx r derives
      cases derives with
      | silent _ inside => exact body inside
      | rule given | noRule given => exact absurd hidden given
  · cases p with
    | unknown | empty =>
      cases kind : (script.define r).kind with
      | silent => exact absurd kind hidden
      | _ => trivial
    | refused =>
      have refused : Peek.enclosed (script.define r).kind .refused = .refused := by
        cases (script.define r).kind <;> rfl
      rw [refused]
      intro ctx r derives
      cases derives with
      | silent given => exact absurd given hidden
      | rule _ inside => cases body inside
      | noRule => rfl

theorem through_holds (fits : s.Fits c) (inner : ∀ r, (rules r).Holds c (.rule r)) (e : Peg Rule) :
    (s.through rules e).Holds c e := by
  induction e with
  | text cs =>
    rw [through]
    split
    · trivial
    next apart =>
      intro ctx r derives
      cases derives with
      | text stripped =>
        exact absurd (fits.text ⟨_, (stripText?_eq_some_iff.1 stripped).1.symm⟩) apart
      | noText => rfl
  | char k =>
    rw [through]
    split
    · trivial
    next apart =>
      intro ctx r derives
      cases derives with
      | char holds => exact absurd (fits.char rfl holds) apart
      | noChar | charEnd => rfl
  | rule r => exact inner r
  | seq a b first second => exact seq_holds fits.clean first second
  | alt a b first second => exact alt_holds first second
  | opt e ih => exact (optional_holds ih).1
  | star e ih => exact (optional_holds ih).2.1
  | not e ih => exact (optional_holds ih).2.2
  | start | finish => trivial

theorem rule_sound (fits : s.Fits c) (n : Nat) (r : Rule) : (s.rule n r).Holds c (.rule r) := by
  induction n generalizing r with
  | zero => exact fits.known r
  | succ n ih =>
    rw [rule]
    split
    · exact rule_holds (through_holds fits ih _)
    · exact fits.known r

/-- What is seen of an expression holds of its matches. -/
theorem peek_sound (fits : s.Fits c) (e : Peg Rule) : (s.peek e).Holds c e :=
  through_holds fits (rule_sound fits 14) e

theorem refused (fits : s.Fits c) (seen : s.peek e = .refused) {r : Result Rule}
    (derives : Derives script ctx (.expr e) c r) : r = .refused := by
  have holds := peek_sound fits e
  rw [seen] at holds
  exact holds derives

/-! ### Places -/

/-- A place in front of some characters. -/
def ahead (w : List Char) : Sight where
  text cs := cs.isPrefixOf w || w.isPrefixOf cs
  char k := w.head?.all k.holds

theorem ahead_fits {w rest : List Char} (there : c.rest = w ++ rest) (some : w ≠ [])
    (clean : layoutUnit c.rest = none) : (ahead w).Fits c where
  text := by
    intro cs starts
    simp only [ahead, Bool.or_eq_true, List.isPrefixOf_iff_prefix]
    exact List.prefix_or_prefix_of_prefix starts (there ▸ List.prefix_append w rest)
  char := by
    intro k x rest' there' holds
    obtain ⟨y, w, rfl⟩ := List.exists_cons_of_ne_nil some
    rw [there] at there'
    cases there'
    simpa [ahead] using holds
  known _ := trivial
  clean _ := clean

/-- A place in front of a character that starts no layout. -/
theorem ahead_cons {x : Char} {rest : List Char} (there : c.rest = x :: rest)
    (clean : layoutUnit (x :: rest) = none) : (ahead [x]).Fits c :=
  ahead_fits there (List.cons_ne_nil x []) (there ▸ clean)

/-- The end of the text. -/
def ended : Sight where
  text cs := cs.isEmpty
  char _ := false

theorem ended_fits (there : c.rest = []) : ended.Fits c where
  text := by
    intro cs starts
    rw [there, List.prefix_nil] at starts
    simp [ended, starts]
  char := by
    intro k x rest there'
    rw [there] at there'
    cases there'
  known _ := trivial
  clean _ := by
    rw [there]
    rfl

/-- In front of an equals sign that no longer operator starts with. -/
def equals : Sight where
  text
    | [] => true
    | '=' :: x :: _ => x != '=' && x != '>'
    | x :: _ => x == '='
  char k := k.holds '='

theorem equals_fits {rest : List Char} (there : c.rest = '=' :: rest)
    (alone : ∀ x ∈ rest.head?, x ≠ '=' ∧ x ≠ '>') : equals.Fits c where
  text := by
    rintro cs ⟨after, starts⟩
    rw [there] at starts
    rcases cs with _ | ⟨x, _ | ⟨y, cs⟩⟩
    · rfl
    · cases starts
      rfl
    · cases starts
      simpa [equals] using alone y rfl
  char := by
    intro k x rest' there' holds
    cases there.symm.trans there'
    exact holds
  known _ := trivial
  clean _ := by
    rw [there]
    rfl

end Sight

/-! ### What does not match -/

/-- There is no match at a place. -/
def Absent (e : Peg Rule) (c : Cursor) : Prop :=
  ∀ nodes d, ¬Matches e c nodes d

namespace Absent

variable {a b e : Peg Rule} {d : Cursor} {nodes : List (Node Rule)}

theorem of_sight {s : Sight} (fits : s.Fits c) (seen : s.peek e = .refused) : Absent e c :=
  fun _ _ derives => nomatch Sight.refused fits seen derives

theorem elim {p : Prop} (none : Absent e c) (derives : Matches e c nodes d) : p :=
  absurd derives (none nodes d)

theorem seq (none : Absent a c) : Absent (.seq a b) c := by
  intro nodes d derives
  obtain ⟨_, _, _, -, first, -⟩ := matches_seq.1 derives
  exact none.elim first

theorem of_opt (none : Absent e c) (derives : Matches (.opt e) c nodes d) : nodes = [] ∧ d = c :=
  (matches_opt.1 derives).elim none.elim And.right

theorem of_star (none : Absent e c) (derives : Matches (.star e) c nodes d) :
    nodes = [] ∧ d = c := by
  rcases matches_star.1 derives with ⟨-, same⟩ | ⟨_, _, _, -, first, -⟩
  · exact same
  · exact none.elim first

theorem of_repeats (none : Absent e c.skip) (derives : Repeats e c nodes d) :
    nodes = [] ∧ d = c := by
  rcases repeats_iff.1 derives with ⟨-, same⟩ | ⟨_, _, _, -, first, -⟩
  · exact same
  · exact none.elim first

end Absent

/-- The rules of a choice that may match at a place. -/
def Sight.left (s : Sight) (rs : List Rule) : List Rule :=
  rs.filter fun r => s.peek (.rule r) != .refused

/-- The only rule of a choice that may match is the one that does. -/
theorem Sight.only {s : Sight} {rs : List Rule} {r : Rule} {d : Cursor} {nodes : List (Node Rule)}
    (fits : s.Fits c)
    (left : s.left rs = [r]) (derives : Matches (anyOf rs) c nodes d) :
    Matches (.rule r) c nodes d := by
  obtain ⟨r', member, one⟩ := exists_of_anyOf derives
  have among : r' ∈ s.left rs := List.mem_filter.2 ⟨member, ?_⟩
  · rw [left, List.mem_singleton] at among
    exact among ▸ one
  · refine bne_iff_ne.2 fun seen => ?_
    exact (Absent.of_sight fits seen).elim one


end Scriptlet.Grammar
