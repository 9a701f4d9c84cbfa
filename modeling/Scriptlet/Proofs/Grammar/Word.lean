import Mathlib.Data.List.TakeWhile
import Scriptlet.Proofs.Grammar.Tracking

/-!
Words.

A keyword or a name reaches as far as letters and digits do, so that the word ahead tells which of
them match. Main statements: `keyword_refused_iff` and `matches_identifier`.
-/

namespace Scriptlet.Grammar

variable {ctx : Context} {c d : Cursor}

def isNameStart (x : Char) : Bool :=
  CharClass.alpha.holds x || x == '_' || x == '$' || CharClass.letter.holds x

def isNameChar (x : Char) : Bool :=
  isNameStart x || CharClass.digit.holds x

/-- The letters and digits ahead. -/
def spelled (cs : List Char) : List Char :=
  cs.takeWhile isNameChar

/-- The step over a character of a kind. -/
def Step.only (p : Char → Bool) : Step
  | x :: rest => if p x then some rest else none
  | [] => none

/-- Whether the word ahead is one of some keywords. -/
def spells (ks : List Keyword) (cs : List Char) : Bool :=
  ks.any fun k => spelled cs == k.text.toList

/-- The step over one of some keywords. -/
def Step.words (ks : List Keyword) : Step := fun cs =>
  if spells ks cs then some (cs.dropWhile isNameChar) else none

/-- The step over any word. -/
def Step.word : Step := fun cs =>
  if cs.head?.any isNameStart then some (cs.dropWhile isNameChar) else none

/-- The step over a name. -/
def Step.name : Step := fun cs =>
  if spells Keyword.reserved cs then none else word cs

theorem exhaust_only (p : Char → Bool) (cs : List Char) :
    (Step.only p).exhaust cs = cs.dropWhile p := by
  induction cs with
  | nil => exact Step.exhaust_of_none rfl
  | cons x cs ih =>
    by_cases holds : p x = true
    · rw [@Step.exhaust_of_some _ _ cs (if_pos holds) (List.suffix_cons x cs), ih,
        List.dropWhile_cons_of_pos holds]
    · rw [Step.exhaust_of_none (if_neg holds), List.dropWhile_cons_of_neg holds]

namespace Decides

variable {e : Peg Rule} {f : Step}

theorem not (inside : Decides ctx.flipped e f) :
    Decides ctx (.not e) fun cs => if (f cs).isSome then none else some cs := by
  constructor
  · intro c d nodes derives
    cases derives with
    | not none => exact ⟨rfl, by simp [inside.refused none]⟩
  · intro c derives
    cases derives with
    | notNone here => simp [(inside.matched here).2]

/-- A rule inside a token gives no node. -/
theorem hidden {r : Rule} (solid : ctx.spacing = .solid) (token : (script.define r).kind = .token)
    (body : Decides (ctx.within .token) (script.define r).body f) : Decides ctx (.rule r) f := by
  rw [← token] at body
  constructor
  · intro c d nodes derives
    cases derives with
    | silent silent => rw [token] at silent; cases silent
    | rule _ inside =>
      obtain ⟨rfl, read⟩ := body.matched inside
      exact ⟨by simp [RuleKind.enclose, token, RuleKind.outer, solid], read⟩
  · intro c derives
    cases derives with
    | silent silent => rw [token] at silent; cases silent
    | noRule _ inside => exact body.refused inside

end Decides

theorem decides_nameStart : Decides ctx (.rule .nameStart) (Step.only isNameStart) := by
  have each : Decides ctx (alts [.char .alpha, lit "_", lit "$", .char .letter]) fun cs =>
      Step.char .alpha cs <|>
        (Step.text ['_'] cs <|> (Step.text ['$'] cs <|> Step.char .letter cs)) :=
    .alt (.char _) (.alt (.text _) (.alt (.text _) (.char _)))
  refine .silent rfl (cast (congrArg _ (funext fun cs => ?_)) each)
  cases cs with
  | nil => rfl
  | cons x cs =>
    by_cases alpha : CharClass.alpha.holds x = true
    · simp [Step.char, Step.only, isNameStart, alpha]
    · by_cases score : x = '_'
      · simp [Step.char, Step.only, Step.text, isNameStart, score, score ▸ alpha]
      · by_cases dollar : x = '$'
        · simp [Step.char, Step.only, Step.text, isNameStart, dollar, dollar ▸ alpha]
        · by_cases letter : CharClass.letter.holds x = true <;>
            simp [Step.char, Step.only, Step.text, isNameStart, alpha, score, dollar, letter,
              Ne.symm score, Ne.symm dollar]

theorem decides_nameChar : Decides ctx (.rule .nameChar) (Step.only isNameChar) := by
  refine .silent rfl (cast (congrArg _ (funext fun cs => ?_))
    (Decides.alt decides_nameStart (.char .digit)))
  cases cs with
  | nil => rfl
  | cons x cs =>
    by_cases start : isNameStart x = true <;> simp [Step.char, Step.only, isNameChar, start]

theorem keyword_spelled (k : Keyword) :
    k.text.toList ≠ [] ∧ ∀ x ∈ k.text.toList, isNameChar x = true := by
  suffices spelled : k.text.toList.isEmpty = false ∧ k.text.toList.all isNameChar = true from
    ⟨List.isEmpty_eq_false_iff.1 spelled.1, List.all_eq_true.1 spelled.2⟩
  cases k <;> exact ⟨rfl, rfl⟩

theorem keyword_text_inj {k k' : Keyword} (same : k.text.toList = k'.text.toList) : k = k' := by
  have every (k : Keyword) : k ∈ Keyword.of_ :: Keyword.reserved := by cases k <;> decide
  have apart : ∀ k ∈ Keyword.of_ :: Keyword.reserved, ∀ k' ∈ Keyword.of_ :: Keyword.reserved,
      k.text.toList = k'.text.toList → k = k' := by
    decide +kernel
  exact apart k (every k) k' (every k') same

theorem decides_keywordBody (k : Keyword) (tight : ctx.spacing ≠ .free) :
    Decides ctx (script.define (.keyword k)).body (Step.words [k]) := by
  have both : Decides ctx (script.define (.keyword k)).body fun cs =>
    Step.text k.text.toList cs >>= fun ds =>
      if ((Step.only isNameChar) ds).isSome then none else some ds :=
    .seq tight (.text _) (.not decides_nameChar)
  refine cast (congrArg _ (funext fun cs => ?_)) both
  simp only [Step.words, spells, List.any_cons, List.any_nil, Bool.or_false, beq_iff_eq]
  by_cases starts : k.text.toList <+: cs
  · obtain ⟨rest, rfl⟩ := starts
    have read : spelled (k.text.toList ++ rest) = k.text.toList ++ spelled rest :=
      List.takeWhile_append_of_pos (keyword_spelled k).2
    have left : (k.text.toList ++ rest).dropWhile isNameChar = rest.dropWhile isNameChar :=
      List.dropWhile_append_of_pos (keyword_spelled k).2
    simp only [Step.text, List.prefix_append, if_true, List.drop_left, Option.bind_eq_bind,
      Option.bind_some, read, left, List.append_right_eq_self]
    cases rest with
    | nil => rfl
    | cons x rest => by_cases char : isNameChar x = true <;> simp [Step.only, spelled, char]
  · have apart : spelled cs ≠ k.text.toList := fun same => starts (same ▸ List.takeWhile_prefix _)
    simp [Step.text, starts, apart]

/-- A keyword matches where it is the word ahead. -/
theorem keyword_refused_iff {k : Keyword} :
    Derives script ctx (.expr (.rule (.keyword k))) c .refused ↔
    spelled c.rest ≠ k.text.toList := by
  have body : Decides (ctx.within .token) _ _ := decides_keywordBody k nofun
  constructor
  · intro derives same
    cases derives with
    | silent hidden => cases hidden
    | noRule _ inside =>
      have none := body.refused inside
      simp [Step.words, spells, same] at none
  · intro apart
    obtain ⟨r, derives⟩ := exists_derives_rule (.keyword k) ctx c
    cases r with
    | refused => exact derives
    | matched nodes d =>
      cases derives with
      | silent hidden => cases hidden
      | rule _ inside =>
        have read := (body.matched inside).2
        simp [Step.words, spells, apart] at read

theorem spelled_of_keyword {k : Keyword} {nodes : List (Node Rule)}
    (derives : Derives script ctx (.expr (.rule (.keyword k))) c (.matched nodes d)) :
    spelled c.rest = k.text.toList := by
  refine Decidable.byContradiction fun apart => ?_
  cases derives.unique (keyword_refused_iff.2 apart)

/-! ### Names -/

theorem decides_words (ks : List Keyword) (solid : ctx.spacing = .solid) :
    Decides ctx (anyOf (ks.map .keyword)) (Step.words ks) := by
  have one (k : Keyword) : Decides ctx (.rule (.keyword k)) (Step.words [k]) :=
    .hidden solid rfl (decides_keywordBody k nofun)
  induction ks with
  | nil =>
    refine cast (congrArg _ (funext fun cs => ?_)) (Decides.not (Decides.text []))
    simp [Step.text, Step.words, spells]
  | cons k ks ih =>
    cases ks with
    | nil => exact one k
    | cons k' ks =>
      refine cast (congrArg _ (funext fun cs => ?_)) (Decides.alt (one k) ih)
      by_cases same : spelled cs = k.text.toList <;> simp [Step.words, spells, same]

theorem decides_word (tight : ctx.spacing ≠ .free) :
    Decides ctx (.seq (.rule .nameStart) (.star (.rule .nameChar))) Step.word := by
  refine cast (congrArg _ (funext fun cs => ?_))
    (decides_nameStart.seq tight (decides_nameChar.star tight))
  cases cs with
  | nil => rfl
  | cons x cs =>
    by_cases start : isNameStart x = true <;>
      simp [Step.only, Step.word, exhaust_only, start, isNameChar]

theorem decides_name (solid : ctx.spacing = .solid) :
    Decides ctx (script.define .identifier).body Step.name := by
  have tight : ctx.spacing ≠ .free := by simp [solid]
  have reserved : Decides ctx.flipped (.rule .reservedWord) (Step.words Keyword.reserved) :=
    .hidden solid rfl (decides_words _ rfl)
  refine cast (congrArg _ (funext fun cs => ?_)) (reserved.not.seq tight (decides_word tight))
  by_cases taken : spells Keyword.reserved cs = true <;> simp [Step.words, Step.name, taken]

/-- Where the text ahead decides what the body of a token reads, it decides the node. -/
theorem matches_token {r : Rule} {f : Step} {nodes : List (Node Rule)}
    (token : (script.define r).kind = .token)
    (body : Decides (Context.within .top .token) (script.define r).body f) :
    Matches (.rule r) c nodes d ↔ f c.rest = some d.rest ∧ c.Advances d ∧
      nodes = [⟨r, ⟨c.pos, d.pos⟩, String.ofList (takeBytes (d.pos - c.pos) c.rest), []⟩] := by
  rw [← token] at body
  have matched {d : Cursor} {nodes : List (Node Rule)} (derives : Matches (.rule r) c nodes d) :
      f c.rest = some d.rest ∧ c.Advances d ∧
        nodes = [⟨r, ⟨c.pos, d.pos⟩, String.ofList (takeBytes (d.pos - c.pos) c.rest), []⟩] := by
    refine ⟨?_, derives.advances, ?_⟩ <;> cases derives with
    | silent hidden => rw [token] at hidden; cases hidden
    | rule _ inside =>
      obtain ⟨rfl, read⟩ := body.matched inside
      first
        | exact read
        | simp [RuleKind.enclose, token, RuleKind.outer, Context.top]
  refine ⟨matched, ?_⟩
  rintro ⟨read, advances, same⟩
  obtain ⟨result, derives⟩ := exists_derives_rule r .top c
  cases result with
  | refused =>
    cases derives with
    | silent hidden => rw [token] at hidden; cases hidden
    | noRule _ inside =>
      rw [body.refused inside] at read
      cases read
  | matched nodes' d' =>
    obtain ⟨read', advances', same'⟩ := matched derives
    cases advances'.unique advances (Option.some.inj (read'.symm.trans read))
    rw [same, ← same']
    exact derives

/-- A name is the word ahead, unless that is a keyword. -/
theorem matches_identifier {nodes : List (Node Rule)} :
    Matches (.rule .identifier) c nodes d ↔ Step.name c.rest = some d.rest ∧ c.Advances d ∧
      nodes =
        [⟨.identifier, ⟨c.pos, d.pos⟩, String.ofList (takeBytes (d.pos - c.pos) c.rest), []⟩] :=
  matches_token rfl (decides_name rfl)

theorem matches_propertyName {nodes : List (Node Rule)} :
    Matches (.rule .propertyName) c nodes d ↔ Step.word c.rest = some d.rest ∧ c.Advances d ∧
      nodes =
        [⟨.propertyName, ⟨c.pos, d.pos⟩, String.ofList (takeBytes (d.pos - c.pos) c.rest), []⟩] :=
  matches_token rfl (decides_word (by nofun))

theorem identifier_refused (none : Step.name c.rest = none) {r : Result Rule}
    (derives : Derives script ctx (.expr (.rule .identifier)) c r) : r = .refused := by
  cases r with
  | refused => rfl
  | matched nodes d =>
    cases derives with
    | silent hidden => cases hidden
    | rule _ inside =>
      have body : Decides (ctx.within .token) _ _ := decides_name rfl
      cases none.symm.trans (body.matched inside).2

theorem Step.word_ends {cs rest : List Char} (word : Step.word cs = some rest) :
    cs.head?.any isNameStart = true ∧ cs.dropWhile isNameChar = rest := by
  rw [Step.word] at word
  split at word
  next start => exact ⟨start, Option.some.inj word⟩
  next => cases word

theorem Step.word_of_name {cs rest : List Char} (name : Step.name cs = some rest) :
    spells Keyword.reserved cs = false ∧ Step.word cs = some rest := by
  rw [Step.name] at name
  split at name
  next => cases name
  next free => exact ⟨Bool.eq_false_iff.2 free, name⟩

/-- A name stays one in front of anything that ends it. -/
theorem name_append {cs rest : List Char} (name : Step.name cs = some [])
    (apart : spelled rest = []) :
    Step.name (cs ++ rest) = some rest := by
  obtain ⟨free, word⟩ := Step.word_of_name name
  obtain ⟨start, ends⟩ := Step.word_ends word
  have letters : ∀ x ∈ cs, isNameChar x = true := List.dropWhile_eq_nil_iff.1 ends
  have read : spelled (cs ++ rest) = spelled cs := by
    rw [spelled, List.takeWhile_append_of_pos letters, ← spelled, apart, List.append_nil, spelled,
      List.takeWhile_eq_self_iff.2 letters]
  have left : (cs ++ rest).dropWhile isNameChar = rest := by
    rw [List.dropWhile_append_of_pos letters]
    have whole := List.takeWhile_append_dropWhile (p := isNameChar) (l := rest)
    rwa [← spelled, apart] at whole
  have head : (cs ++ rest).head? = cs.head? := by
    cases cs with
    | nil => cases start
    | cons => rfl
  simp only [spells] at free
  simp [Step.name, Step.word, spells, read, free, head, start, left]

/-! ### At first sight -/

namespace Sight

/-- In front of a name. -/
def named : Sight where
  text cs := cs.head?.all isNameStart
  char k := [CharClass.any, .alpha, .hexDigit, .letter].contains k
  known
    | .keyword k => if k ∈ Keyword.reserved then .refused else .unknown
    | _ => .unknown

theorem head_of_starts {cs ds : List Char} {p : Char → Bool} (starts : cs <+: ds)
    (head : ds.head?.any p = true) :
    cs.head?.all p = true := by
  obtain ⟨rest, rfl⟩ := starts
  cases cs <;> simp_all

/-- No word starts with a blank, a digit or a comment. -/
theorem isNameStart_apart {x : Char} (start : isNameStart x = true) :
    CharClass.blank.holds x = false ∧ CharClass.digit.holds x = false ∧ x ≠ '/' := by
  have never : ∀ n ∈ [9, 10, 13, 32, 47, 0xFEFF, 0xA0, 0x2028, 0x2029] ++ List.range' 48 10,
      isNameStart (Char.ofNat n) = false := by
    decide +kernel
  have apart (n : Nat)
      (special : n ∈ [9, 10, 13, 32, 47, 0xFEFF, 0xA0, 0x2028, 0x2029] ++ List.range' 48 10) :
      x ≠ Char.ofNat n := by
    rintro rfl
    rw [never n special] at start
    cases start
  refine ⟨Bool.eq_false_iff.2 fun blank => ?_, Bool.eq_false_iff.2 fun digit => ?_,
    apart 47 (by decide)⟩
  · simp only [CharClass.holds, Bool.or_eq_true, beq_iff_eq, or_assoc] at blank
    rcases blank with rfl | rfl | rfl | rfl | rfl | rfl | rfl | rfl
    · exact apart 32 (by decide) rfl
    · exact apart 9 (by decide) rfl
    · exact apart 13 (by decide) rfl
    · exact apart 10 (by decide) rfl
    · exact apart 0xFEFF (by decide) rfl
    · exact apart 0xA0 (by decide) rfl
    · exact apart 0x2028 (by decide) rfl
    · exact apart 0x2029 (by decide) rfl
  · simp only [CharClass.holds, Char.isDigit, Bool.and_eq_true, decide_eq_true_eq] at digit
    refine apart x.toNat (List.mem_append_right _ (List.mem_range'_1.2 ?_))
      (Char.ofNat_toNat x).symm
    exact ⟨digit.1, Nat.lt_succ_of_le digit.2⟩

theorem layoutUnit_of_start {cs : List Char} (start : cs.head?.any isNameStart = true) :
    layoutUnit cs = none := by
  cases cs with
  | nil => cases start
  | cons x cs =>
    obtain ⟨blank, -, slash⟩ := isNameStart_apart start
    rw [Lexer.layoutUnit_of_word, if_neg (by simp [blank])]
    rintro (⟨_, same⟩ | ⟨_, same⟩) <;> exact slash (List.cons.inj same).1.symm

theorem named_fits {ds : List Char} (name : Step.name c.rest = some ds) : named.Fits c := by
  obtain ⟨free, word⟩ := Step.word_of_name name
  have start := (Step.word_ends word).1
  refine ⟨fun starts => head_of_starts starts start, fun {k x rest} there holds => ?_, fun r => ?_,
    fun _ => layoutUnit_of_start start⟩
  · rw [there] at start
    obtain ⟨blank, digit, -⟩ := isNameStart_apart start
    cases k <;> simp_all [named]
  · cases r with
    | keyword k =>
      simp only [named]
      split
      next reserved =>
        intro ctx r derives
        refine derives.unique (keyword_refused_iff.2 fun same => ?_)
        simp only [spells, List.any_eq_false, beq_iff_eq] at free
        exact free k reserved same
      next => trivial
    | _ => trivial

/-- In front of layout. -/
def layout : Sight where
  text cs := cs.head?.all fun x => x == '/' || CharClass.blank.holds x
  char k := k == .any || k == .blank
  known r := if r = .identifier then .refused else .unknown
  clean := false

theorem layout_fits {rest : List Char} (read : layoutUnit c.rest = some rest) : layout.Fits c := by
  have head : ∃ x rest, c.rest = x :: rest ∧ (x = '/' ∨ CharClass.blank.holds x = true) := by
    unfold layoutUnit at read
    split at read
    next rest there => exact ⟨'/', _, there, .inl rfl⟩
    next rest there => exact ⟨'/', _, there, .inl rfl⟩
    next x rest _ _ there =>
      split at read
      next blank => exact ⟨x, rest, there, .inr blank⟩
      next => cases read
    next => cases read
  obtain ⟨x, rest, there, special⟩ := head
  refine ⟨fun starts => head_of_starts starts ?_, fun {k y rest} there' holds => ?_,
    fun r => ?_, nofun⟩
  · rw [there]
    simpa using special
  · obtain ⟨rfl, -⟩ := List.cons.inj (there.symm.trans there')
    by_cases some : k = .any
    · simp [layout, some]
    by_cases word : k = .blank
    · simp [layout, word]
    obtain ⟨blank, apart⟩ := Lexer.class_apart some word holds
    rcases special with rfl | special
    · simp at apart
    · rw [blank] at special
      cases special
  · simp only [layout]
    split
    next name =>
      subst name
      intro ctx r derives
      refine identifier_refused ?_ derives
      have start : isNameStart x = false := by
        refine Bool.eq_false_iff.2 fun start => ?_
        obtain ⟨blank, -, slash⟩ := isNameStart_apart start
        rcases special with rfl | special
        · exact slash rfl
        · rw [blank] at special
          cases special
      have word : Step.word c.rest = none := by simp [Step.word, there, start]
      simp [Step.name, word]
    next => trivial

/-- In front of a keyword. -/
def keyword (k : Keyword) : Sight where
  text cs := cs.isPrefixOf k.text.toList || k.text.toList.isPrefixOf cs
  char class' := k.text.toList.head?.all class'.holds
  known
    | .keyword k' => if k = k' then .unknown else .refused
    | .identifier => .refused
    | _ => .unknown

theorem keyword_fits {k : Keyword} (word : spelled c.rest = k.text.toList)
    (reserved : k ∈ Keyword.reserved) :
    (keyword k).Fits c := by
  have starts : k.text.toList <+: c.rest := word ▸ List.takeWhile_prefix _
  obtain ⟨rest, there⟩ := starts
  have start : c.rest.head?.any isNameStart = true := by
    rw [← there]
    cases k <;> rfl
  have here := ahead_fits there.symm (keyword_spelled k).1 (layoutUnit_of_start start)
  refine ⟨here.text, here.char, fun r => ?_, here.clean⟩
  cases r with
  | keyword k' =>
    simp only [keyword]
    split
    · trivial
    next apart =>
      intro ctx r derives
      exact derives.unique
        (keyword_refused_iff.2 fun same => apart (keyword_text_inj (word.symm.trans same)))
  | identifier =>
    intro ctx r derives
    have taken : spells Keyword.reserved c.rest = true :=
      List.any_eq_true.2 ⟨k, reserved, by simp [word]⟩
    exact identifier_refused (by rw [Step.name, if_pos taken]) derives
  | _ => trivial

end Sight

end Scriptlet.Grammar
