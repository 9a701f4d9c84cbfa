import Scriptlet.Proofs.Grammar.Lexer
import Scriptlet.Proofs.Grammar.Sight

/-!
What a match opens it closes.

Whatever the grammar matches takes the lexer from where the match begins to where it ends, with the
same frames open. A check of every body of a rule tells what is open between its parts. Main
statement: `Derives.follows`.
-/

namespace Scriptlet.Grammar

variable {ctx : Context} {c d : Cursor}

namespace Lexer

/-! ### Characters of strings and templates -/

section Textual

variable (tight : ctx.spacing ≠ .free)

include tight

theorem decides_escape : Decides ctx (.rule .escape) fun cs => Step.text ['\\'] cs >>= escaped := by
  refine .silent rfl ?_
  have both : Decides ctx (alts [lit "\r\n", .char .any])
      fun cs => Step.text ['\r', '\n'] cs <|> Step.char .any cs := .alt (.text _) (.char _)
  have same : (fun cs => Step.text ['\r', '\n'] cs <|> Step.char .any cs) = escaped := by
    funext cs
    unfold escaped
    split
    · simp [Step.text]
    next x rest other =>
      have apart : ¬['\r', '\n'] <+: x :: rest := by
        rintro ⟨after, same⟩
        cases same
        exact other _ rfl rfl
      simp [Step.text, apart, Step.char, CharClass.holds]
    · rfl
  exact .seq tight (.text ['\\']) (same ▸ both)

theorem decides_quotedUnit (q : Char) : Decides ctx
    (alts [.rule .escape, except (alts [.text [q], lit "\\", lit "\n", lit "\r"])])
      (quotedUnit q) := by
  have stop (ctx : Context) : Decides ctx (alts [.text [q], lit "\\", lit "\n", lit "\r"])
      fun cs => Step.text [q] cs <|>
        (Step.text ['\\'] cs <|> (Step.text ['\n'] cs <|> Step.text ['\r'] cs)) :=
    .alt (.text _) (.alt (.text _) (.alt (.text _) (.text _)))
  have each := Decides.alt (decides_escape tight) (.except tight (stop ctx.flipped))
  refine cast (congrArg _ (funext fun cs => ?_)) each
  unfold quotedUnit
  split
  next rest => cases read : escaped rest <;> simp [Step.text, Step.except, read]
  next x rest escape =>
    by_cases ends : x = q ∨ isLineEnd x = true
    · rw [if_pos ends]
      simp only [isLineEnd, Bool.or_eq_true, beq_iff_eq] at ends
      rcases ends with rfl | rfl | rfl <;> simp [Step.text, Step.except, Ne.symm escape]
    · rw [if_neg ends]
      simp only [isLineEnd, Bool.or_eq_true, beq_iff_eq, not_or] at ends
      simp [Step.text, Step.except, Ne.symm ends.1, Ne.symm escape, Ne.symm ends.2.1,
        Ne.symm ends.2.2]
  · rfl

theorem decides_templateUnit : Decides ctx
    (alts [.rule .escape, except (alts [lit "`", lit "\\", lit "$\x7b"])]) templateUnit := by
  have stop (ctx : Context) : Decides ctx (alts [lit "`", lit "\\", lit "$\x7b"])
      fun cs => Step.text ['\x60'] cs <|> (Step.text ['\\'] cs <|> Step.text ['$', '\x7b'] cs) :=
    .alt (.text _) (.alt (.text _) (.text _))
  have each := Decides.alt (decides_escape tight) (.except tight (stop ctx.flipped))
  refine cast (congrArg _ (funext fun cs => ?_)) each
  unfold templateUnit
  split
  next rest => cases read : escaped rest <;> simp [Step.text, Step.except, read]
  · simp [Step.text, Step.except]
  next x rest escape hole =>
    have apart : ¬['$', '\x7b'] <+: x :: rest := by
      rintro ⟨after, same⟩
      cases same
      exact hole _ rfl rfl
    by_cases ends : x = '\x60'
    · subst ends
      simp [Step.text, Step.except]
    · simp [Step.text, Step.except, ends, Ne.symm ends, Ne.symm escape, apart]
  · rfl

end Textual

/-! ### What is open after an expression -/

/-- What is open after a literal. A slash of its own is not among them. -/
def after (open_ : List Frame) : List Char → Option (List Frame)
  | [] => some open_
  | x :: rest =>
    match open_ with
    | .double :: outer => if x = '"' then after outer rest else none
    | .single :: outer => if x = '\x27' then after outer rest else none
    | .template :: outer =>
      if x = '\x60' then after outer rest
      else if x = '$' ∧ rest = ['\x7b'] then some (.hole :: open_)
      else none
    | _ =>
      if CharClass.blank.holds x ∨ x = '/' ∧ rest.head? ≠ some '=' then none
      else (word open_ x).bind (after · rest)

/-- What is open where a rule may stand. -/
def entry : Rule → Option (List Frame)
  | .program | .endOfInput | .escape => none
  | .doubleChars => some [.double]
  | .singleChars => some [.single]
  | .templateChars | .substitution => some [.template]
  | _ => some []

/-- The rules that match characters of strings and templates. -/
def isTextual : Rule → Bool
  | .doubleChars | .singleChars | .templateChars => true
  | _ => false

/-- Whether a rule also stands where no layout is skipped. -/
def isWord : Rule → Bool
  | .keyword _ | .reservedWord | .nameStart | .nameChar | .identifier | .propertyName | .number
  | .hexNumber | .decimalNumber | .exponent | .string | .doubleChars | .singleChars | .template
  | .templateChars | .substitution => true
  | _ => false

/-- Whether an expression may match a slash of its own. -/
def isSlash : Peg Rule → Bool
  | .text cs => cs == ['/']
  | .rule r => r == .infixOperator || r == .infixOp (.binary (.arith .divide))
  | .alt a b => isSlash a || isSlash b
  | _ => false

/-- An operator and what it is applied to. -/
def isOperation : Peg Rule → Peg Rule → Bool
  | .rule .infixOperator, .rule .unary => true
  | _, _ => false

/-- What is open after an expression; nothing if it may not stand there. -/
def track (s : Spacing) (open_ : List Frame) : Peg Rule → Option (List Frame)
  | .text cs =>
    if cs = ['/'] then if inCode open_ then some open_ else none
    else if cs.tail.any closes then none
    else after open_ cs
  | .char k => if inCode open_ && k != .any && k != .blank then some open_ else none
  | .rule r =>
    if isWord r || s == .free then
      (entry r).bind fun there =>
        if there <+: open_ ∧ inCode (open_.drop there.length) then some open_ else none
    else none
  | .seq a b =>
    if isSlash a && !(isOperation a b && s == .free) || isSlash b then none
    else (track s open_ a).bind fun middle =>
      if s != .free || inCode middle then track s middle b else none
  | .alt a b =>
    (track s open_ a).bind fun one => (track s open_ b).bind fun other =>
      if one = other then some one else none
  | .star e =>
    if !isSlash e && (s != .free || inCode open_) && track s open_ e = some open_ then some open_
      else none
  | .opt e => if !isSlash e && track s open_ e = some open_ then some open_ else none
  | .not e => if !isSlash e && (track s open_ e).isSome then some open_ else none
  | .start | .finish => none

section Equations

variable (s : Spacing) (open_ : List Frame)

theorem track_text (cs : List Char) : track s open_ (.text cs) =
    if cs = ['/'] then if inCode open_ then some open_ else none
    else if cs.tail.any closes then none
    else after open_ cs :=
  rfl

theorem track_char (k : CharClass) : track s open_ (.char k) =
    if inCode open_ && k != .any && k != .blank then some open_ else none :=
  rfl

theorem track_rule (r : Rule) : track s open_ (.rule r) =
    if isWord r || s == .free then
      (entry r).bind fun there =>
        if there <+: open_ ∧ inCode (open_.drop there.length) then some open_ else none
    else none :=
  rfl

theorem track_seq (a b : Peg Rule) : track s open_ (.seq a b) =
    if isSlash a && !(isOperation a b && s == .free) || isSlash b then none
    else (track s open_ a).bind fun middle =>
      if s != .free || inCode middle then track s middle b else none :=
  rfl

theorem track_alt (a b : Peg Rule) : track s open_ (.alt a b) =
    (track s open_ a).bind fun one => (track s open_ b).bind fun other =>
      if one = other then some one else none :=
  rfl

theorem track_star (e : Peg Rule) : track s open_ (.star e) =
    if !isSlash e && (s != .free || inCode open_) && track s open_ e = some open_ then some open_
      else none :=
  rfl

theorem track_opt (e : Peg Rule) : track s open_ (.opt e) =
    if !isSlash e && track s open_ e = some open_ then some open_ else none :=
  rfl

theorem track_not (e : Peg Rule) : track s open_ (.not e) =
    if !isSlash e && (track s open_ e).isSome then some open_ else none :=
  rfl

end Equations

theorem eq_of_isOperation {a b : Peg Rule} (operation : isOperation a b = true) :
    a = .rule .infixOperator ∧ b = .rule .unary := by
  unfold isOperation at operation
  split at operation
  · exact ⟨rfl, rfl⟩
  · cases operation

def trackJob (s : Spacing) (open_ : List Frame) : Job Rule → Option (List Frame)
  | .expr e => track s open_ e
  | .gap => if s != .free || inCode open_ then some open_ else none
  | .more e => track s open_ (.star e)

/-- Whether the body of a rule leaves open what was open, may match a slash of its own only if that
is known of the rule, and starts to skip layout only inside a template. -/
def isBalanced (r : Rule) : Bool :=
  match entry r with
  | none => true
  | some there =>
    (isTextual r || [Spacing.free, .joined, .solid].all fun s =>
      !(isWord r || s == .free) ||
        track ((script.define r).kind.inner s) there (script.define r).body == some there) &&
      (!isSlash (script.define r).body || isSlash (.rule r)) &&
      ((script.define r).kind != .spaced || !inCode there)

theorem isBalanced_eq (r : Rule) : isBalanced r = true := by
  cases r with
  | keyword k => cases k <;> rfl
  | assignOp op =>
    cases op with
    | plain => rfl
    | compound op | logical op => cases op <;> rfl
  | infixOp op =>
    cases op with
    | binary op =>
      cases op with
      | arith op => cases op <;> rfl
      | _ => rfl
    | logical op => cases op <;> rfl
  | unaryOp op | updateOp op => cases op <;> rfl
  | _ => rfl

/-! ### Steps over words -/

variable {open_ open' outer : List Frame} {cs rest : List Char}

theorem inCode_append (base : inCode outer = true) (code : inCode open_ = true) :
    inCode (open_ ++ outer) = true := by
  cases open_ with
  | nil => exact base
  | cons f open_ => cases f <;> first | rfl | cases code

theorem unit_of_inCode (code : inCode open_ = true) : unit open_ = layoutUnit := by
  unfold unit
  split <;> first | rfl | cases code

theorem turn_of_inCode {x : Char} (code : inCode open_ = true) :
    turn open_ rest x = if ['/', '*'] <+: x :: rest then none
      else (word open_ x).map (·, rest) := by
  unfold turn
  split <;> first | rfl | cases code

theorem word_append {x : Char} (read : word open_ x = some open') :
    word (open_ ++ outer) x = some (open' ++ outer) := by
  unfold word at read ⊢
  repeat' split at read
  all_goals cases read
  all_goals simp_all

/-- A character of a word. -/
theorem step_word {x : Char} (code : inCode open_ = true) (blank : CharClass.blank.holds x = false)
    (comment : ¬StartsComment (x :: rest)) (read : word open_ x = some open') :
    step (open_, x :: rest) = some (open', rest) := by
  have none : unit open_ (x :: rest) = none := by
    rw [unit_of_inCode code, layoutUnit_of_word comment, if_neg (by simp [blank])]
  rw [step_of_turn none, turn_of_inCode code, if_neg fun block => comment (.inr block), read]
  rfl

/-- What the innermost frame holds is read without a change of what is open. -/
theorem path_exhaust (open_ : List Frame) (cs : List Char) :
    Path (open_, cs) (open_, (unit open_).exhaust cs) := by
  rw [Step.exhaust]
  split
  · exact .refl
  next ds read =>
    split
    · exact .head (step_of_unit read) (path_exhaust open_ ds)
    · exact .refl
termination_by cs.length

theorem path_clean (code : inCode open_ = true) (cs : List Char) :
    Path (open_, cs) (open_, clean cs) := by
  have path := path_exhaust open_ cs
  rwa [unit_of_inCode code] at path

theorem path_after (base : inCode outer = true) (read : after open_ cs = some open') :
    Path (open_ ++ outer, cs ++ rest) (open' ++ outer, rest) := by
  induction cs generalizing open_ with
  | nil =>
    cases read
    exact .refl
  | cons x cs ih =>
    rw [after.eq_def] at read
    simp only at read
    split at read
    · split at read
      next quote =>
        subst quote
        exact .head rfl (ih read)
      next => cases read
    · split at read
      next quote =>
        subst quote
        exact .head rfl (ih read)
      next => cases read
    · split at read
      next quote =>
        subst quote
        exact .head rfl (ih read)
      next =>
        split at read
        next hole =>
          obtain ⟨rfl, rfl⟩ := hole
          cases read
          exact .single rfl
        next => cases read
    next double single template =>
      have code : inCode open_ = true := by
        unfold inCode
        split <;> simp_all
      split at read
      · cases read
      next plain =>
        rw [not_or, not_and_or, not_not] at plain
        obtain ⟨between, turned, read⟩ := Option.bind_eq_some_iff.1 read
        refine .head (step_word (inCode_append base code) (Bool.eq_false_iff.2 plain.1) ?_
          (word_append turned)) (ih read)
        rintro (⟨_, same⟩ | ⟨_, same⟩) <;> obtain ⟨rfl, ahead⟩ := List.cons.inj same
        all_goals
          obtain ⟨_, rfl⟩ := List.head?_eq_some_iff.1 (plain.2.resolve_left (absurd rfl))
          cases ahead

/-- No letter or digit opens or closes anything, or is layout. -/
theorem class_apart {k : CharClass} {x : Char} (some : k ≠ .any) (word : k ≠ .blank)
    (holds : k.holds x = true) :
    CharClass.blank.holds x = false ∧
      x ∉ ['(', ')', '[', ']', '\x7b', '\x7d', '"', '\x27', '\x60', '/'] := by
  have never : ∀ k ∈ [CharClass.alpha, .digit, .hexDigit, .letter],
      [' ', '\t', '\r', '\n', '\uFEFF', '\u00A0', '\u2028', '\u2029',
        '(', ')', '[', ']', '\x7b', '\x7d', '"', '\x27', '\x60', '/'].any k.holds = false := by
    decide +kernel
  have among : k ∈ [CharClass.alpha, .digit, .hexDigit, .letter] := by
    cases k <;> simp_all
  have apart (x' : Char)
    (special : x' ∈ [' ', '\t', '\r', '\n', '\uFEFF', '\u00A0', '\u2028', '\u2029',
      '(', ')', '[', ']', '\x7b', '\x7d', '"', '\x27', '\x60', '/']) : x ≠ x' := by
    rintro rfl
    exact absurd holds (List.any_eq_false.1 (never k among) x special)
  constructor
  · refine Bool.eq_false_iff.2 fun blank => ?_
    simp only [CharClass.holds, Bool.or_eq_true, beq_iff_eq, or_assoc] at blank
    simp at apart
    grind
  · simp at apart ⊢
    grind

theorem step_class {k : CharClass} {x : Char} (code : inCode open_ = true) (some : k ≠ .any)
    (word : k ≠ .blank) (holds : k.holds x = true) :
    step (open_, x :: rest) = .some (open_, rest) := by
  obtain ⟨blank, apart⟩ := class_apart some word holds
  simp only [List.mem_cons, List.not_mem_nil, or_false, not_or] at apart
  refine step_word code blank ?_ ?_
  · rintro (⟨_, same⟩ | ⟨_, same⟩) <;> cases same <;> simp at apart
  · unfold Lexer.word
    split <;> simp_all

/-! ### Matches -/

def operatorTexts : List (List Char) :=
  infixOps.map (·.symbol.toList) ++ [Keyword.instanceof_.text.toList, Keyword.in_.text.toList]

theorem exists_operatorText {nodes : List (Node Rule)}
    (derives : Derives script ctx (.expr (.rule .infixOperator)) c (.matched nodes d)) :
    ∃ cs ∈ operatorTexts, c.rest = cs ++ d.rest := by
  cases derives with
  | rule given => exact absurd rfl given
  | silent _ body =>
    obtain ⟨r, member, one⟩ := exists_of_anyOf body
    rcases List.mem_append.1 member with symbol | keyword
    · obtain ⟨op, known, rfl⟩ := List.mem_map.1 symbol
      cases one with
      | silent hidden => cases hidden
      | rule _ inside => cases inside with
        | text stripped =>
          exact ⟨_, List.mem_append_left _ (List.mem_map_of_mem known),
            (stripText?_eq_some_iff.1 stripped).1⟩
    · obtain ⟨k, known, rfl⟩ : ∃ k,
        k.text.toList ∈ [Keyword.instanceof_.text.toList, Keyword.in_.text.toList] ∧
          r = .keyword k := by
        simp only [List.mem_cons, List.not_mem_nil, or_false] at keyword
        rcases keyword with rfl | rfl
        · exact ⟨.instanceof_, by simp, rfl⟩
        · exact ⟨.in_, by simp, rfl⟩
      cases one with
      | silent hidden => cases hidden
      | rule _ inside => cases inside with
        | seq word gap stop =>
          cases Decides.stay (by nofun) gap
          cases stop with
          | not =>
            cases word with
            | text stripped =>
              exact ⟨_, List.mem_append_right _ known, (stripText?_eq_some_iff.1 stripped).1⟩

/-- Where an operator and its operand match, no comment begins, not even one without an end. -/
theorem operation_apart {nodes : List (Node Rule)} (unit : layoutUnit c.rest = none)
    (derives : Derives script ctx (.expr (.seq (.rule .infixOperator) (.rule .unary))) c
      (.matched nodes d)) :
    ¬StartsComment c.rest := by
  have slash : ∀ cs ∈ operatorTexts, cs ≠ [] ∧ (['/'] <+: cs → cs = ['/']) := by decide +kernel
  rintro (⟨rest, ahead⟩ | ⟨rest, ahead⟩)
  · rw [← ahead] at unit
    cases unit
  · cases derives with
    | @seq _ _ _ _ d e _ _ _ _ one gap two =>
      obtain ⟨cs, known, same⟩ := exists_operatorText one
      obtain ⟨some, single⟩ := slash cs known
      obtain ⟨y, cs, rfl⟩ := List.exists_cons_of_ne_nil some
      obtain ⟨rfl, -⟩ := List.cons.inj (ahead.trans same)
      cases single ⟨cs, rfl⟩
      have there : d.rest = '*' :: rest := (List.cons.inj (ahead.trans same)).2.symm
      have clean : layoutUnit d.rest = none := by
        rw [there]
        rfl
      cases gap_of_clean clean gap
      cases Sight.refused (Sight.ahead_fits (w := ['*']) there (by decide) clean) rfl two

theorem layoutUnit_clean (cs : List Char) : layoutUnit (clean cs) = none := by
  rw [clean, Step.exhaust]
  split
  next none => exact none
  next ds read =>
    rw [if_pos (layoutUnit_suffix read).2]
    have := (layoutUnit_suffix read).2
    exact layoutUnit_clean ds
termination_by cs.length

/-- A place where an expression may be tried: layout is skipped, if it is where words stand, and a
slash of its own starts no comment. -/
def Stands (s : Spacing) (open_ : List Frame) (cs : List Char) : Job Rule → Prop
  | .expr e => (s = .free → inCode open_ = true → layoutUnit cs = none) ∧
      (isSlash e = true → ¬StartsComment cs)
  | .gap | .more _ => True

namespace Stands

variable {s : Spacing} {a b e e' : Peg Rule}

theorem inside (stands : Stands s open_ cs (.expr e)) (slash : isSlash e' = false) :
    Stands s open_ cs (.expr e') :=
  ⟨stands.1, fun own => by rw [slash] at own; cases own⟩

theorem left (stands : Stands s open_ cs (.expr (.alt a b))) : Stands s open_ cs (.expr a) :=
  ⟨stands.1, fun own => stands.2 (by simp [isSlash, own])⟩

theorem right (stands : Stands s open_ cs (.expr (.alt a b))) : Stands s open_ cs (.expr b) :=
  ⟨stands.1, fun own => stands.2 (by simp [isSlash, own])⟩

/-- A place after layout. -/
theorem of_gap {gap : List (Node Rule)}
    (skipped : Derives script ctx .gap c (.matched gap d)) (slash : isSlash e = false) :
    Stands ctx.spacing open_ d.rest (.expr e) := by
  refine ⟨fun free _ => ?_, fun own => ?_⟩
  · cases skipped.unique (derives_skip free c)
    exact layoutUnit_clean c.rest
  · rw [slash] at own
    cases own

end Stands

section Tracked

variable {s : Spacing} {a b e : Peg Rule}

theorem tracked_seq (tracked : track s open_ (.seq a b) = some open') :
    (isSlash a = true → isOperation a b = true ∧ s = .free) ∧ isSlash b = false ∧
      ∃ middle, track s open_ a = some middle ∧ (s = .free → inCode middle = true) ∧
        track s middle b = some open' := by
  rw [track_seq] at tracked
  split at tracked
  · cases tracked
  next slashes =>
    obtain ⟨middle, first, tracked⟩ := Option.bind_eq_some_iff.1 tracked
    split at tracked
    next gap =>
      simp only [Bool.or_eq_true, Bool.and_eq_true, Bool.not_eq_true', Bool.and_eq_false_iff,
        bne_iff_ne, beq_eq_false_iff_ne, not_or, not_and, ne_eq, Bool.not_eq_true] at slashes gap
      refine ⟨fun own => ?_, slashes.2, middle, first, ?_, tracked⟩
      · have := slashes.1 own
        simp only [Bool.not_eq_false, not_not] at this
        exact this
      · exact fun free => gap.resolve_left (absurd free)
    next => cases tracked

theorem track_gap (words : s = .free → inCode open_ = true) :
    trackJob s open_ .gap = some open_ := by
  by_cases free : s = .free <;> simp [trackJob, free, words]

theorem tracked_alt (tracked : track s open_ (.alt a b) = some open') :
    track s open_ a = some open' ∧ track s open_ b = some open' := by
  rw [track_alt] at tracked
  obtain ⟨one, first, tracked⟩ := Option.bind_eq_some_iff.1 tracked
  obtain ⟨other, second, tracked⟩ := Option.bind_eq_some_iff.1 tracked
  split at tracked
  next same =>
    cases tracked
    cases same
    exact ⟨first, second⟩
  next => cases tracked

theorem tracked_star (tracked : track s open_ (.star e) = some open') :
    open' = open_ ∧ isSlash e = false ∧ (s = .free → inCode open_ = true) ∧
    track s open_ e = some open_ := by
  rw [track_star] at tracked
  split at tracked
  next checked =>
    cases tracked
    simp only [Bool.and_eq_true, Bool.not_eq_true', Bool.or_eq_true, bne_iff_ne, decide_eq_true_eq]
      at checked
    obtain ⟨⟨slash, gap⟩, inside⟩ := checked
    exact ⟨rfl, slash, fun free => gap.resolve_left (absurd free), inside⟩
  next => cases tracked

theorem tracked_opt (tracked : track s open_ (.opt e) = some open') :
    open' = open_ ∧ isSlash e = false ∧ track s open_ e = some open_ := by
  rw [track_opt] at tracked
  split at tracked
  next checked =>
    cases tracked
    simp only [Bool.and_eq_true, Bool.not_eq_true', decide_eq_true_eq] at checked
    exact ⟨rfl, checked.1, checked.2⟩
  next => cases tracked

theorem tracked_not (tracked : track s open_ (.not e) = some open') :
    open' = open_ ∧ isSlash e = false ∧ ∃ inside, track s open_ e = some inside := by
  rw [track_not] at tracked
  split at tracked
  next checked =>
    cases tracked
    simp only [Bool.and_eq_true, Bool.not_eq_true', Option.isSome_iff_exists] at checked
    exact ⟨rfl, checked.1, checked.2⟩
  next => cases tracked

theorem tracked_rule {r : Rule} (tracked : track s open_ (.rule r) = some open') :
    open' = open_ ∧ (isWord r || s == .free) = true ∧
      ∃ there above, entry r = some there ∧ open_ = there ++ above ∧ inCode above = true := by
  rw [track_rule] at tracked
  split at tracked
  next stands =>
    obtain ⟨there, entered, tracked⟩ := Option.bind_eq_some_iff.1 tracked
    split at tracked
    next checked =>
      cases tracked
      obtain ⟨⟨above, rfl⟩, code⟩ := checked
      rw [List.drop_left] at code
      exact ⟨rfl, stands, there, above, entered, rfl, code⟩
    next => cases tracked
  next => cases tracked

/-- The body of a rule leaves open what was open. -/
theorem track_body {r : Rule} {there : List Frame} (entered : entry r = some there)
    (stands : (isWord r || s == .free) = true) (textual : isTextual r = false) :
    track ((script.define r).kind.inner s) there (script.define r).body = some there := by
  have balanced := isBalanced_eq r
  rw [isBalanced, entered] at balanced
  simp only [textual, Bool.false_or, Bool.and_eq_true, List.all_cons, List.all_nil, Bool.and_true,
    Bool.or_eq_true, Bool.not_eq_true', beq_iff_eq] at balanced
  cases s <;> simp_all

/-- The body of a rule may be tried where the rule may be. -/
theorem Stands.body {r : Rule} {there above : List Frame} (entered : entry r = some there)
    (code : inCode above = true) (stands : Stands s (there ++ above) cs (.expr (.rule r))) :
    Stands ((script.define r).kind.inner s) there cs (.expr (script.define r).body) := by
  have balanced := isBalanced_eq r
  rw [isBalanced, entered] at balanced
  simp only [Bool.and_eq_true, Bool.or_eq_true, Bool.not_eq_true', bne_iff_ne] at balanced
  obtain ⟨⟨-, slash⟩, spaced⟩ := balanced
  refine ⟨fun free inside => stands.1 ?_ (inCode_append code inside), fun own => stands.2 ?_⟩
  · cases kind : (script.define r).kind with
    | plain | silent => rwa [kind] at free
    | token | joined => rw [kind] at free; cases free
    | spaced => simp [kind, inside] at spaced
  · exact slash.resolve_left (by simp [own])

end Tracked

/-- The characters of a string or a template are what the innermost frame holds; a template gives
them only if there are some. -/
theorem decides_textual {r : Rule} {there : List Frame} (entered : entry r = some there)
    (textual : isTextual r = true) (tight : ctx.spacing ≠ .free) (outer : List Frame) :
    (script.define r).kind = .token ∧ ∃ f, Decides ctx (script.define r).body f ∧
      (f = (fun cs => some ((unit (there ++ outer)).exhaust cs)) ∨
        f = fun cs => unit (there ++ outer) cs >>= fun rest =>
          some ((unit (there ++ outer)).exhaust rest)) := by
  cases r with
  | doubleChars =>
    cases entered
    exact ⟨rfl, _, (decides_quotedUnit tight '"').star tight, .inl rfl⟩
  | singleChars =>
    cases entered
    exact ⟨rfl, _, (decides_quotedUnit tight '\x27').star tight, .inl rfl⟩
  | templateChars =>
    cases entered
    have each := decides_templateUnit tight
    exact ⟨rfl, _, each.seq tight (each.star tight), .inr rfl⟩
  | _ => cases textual

theorem follows_textual {r : Rule} {there : List Frame} (entered : entry r = some there)
    (textual : isTextual r = true) {nodes : List (Node Rule)}
    (derives : Derives script ctx (.expr (.rule r)) c (.matched nodes d)) :
    Path (there ++ outer, c.rest) (there ++ outer, d.rest) := by
  obtain ⟨kind, f, decides, reads⟩ :=
    decides_textual entered textual (show (ctx.within .token).spacing ≠ .free from nofun) outer
  cases derives with
  | silent hidden =>
    rw [kind] at hidden
    cases hidden
  | rule _ body =>
    rw [kind] at body
    obtain ⟨-, read⟩ := decides.matched body
    rcases reads with rfl | rfl
    · rw [← Option.some.inj read]
      exact path_exhaust _ _
    · obtain ⟨rest, first, more⟩ := Option.bind_eq_some_iff.1 read
      rw [← Option.some.inj more]
      exact .head (step_of_unit first) (path_exhaust _ rest)

end Lexer

open Lexer

/-- What a match opens it closes: it takes the lexer to where it ends. -/
theorem Derives.follows {j : Job Rule} {r : Result Rule} (derives : Derives script ctx j c r)
    {nodes : List (Node Rule)} (matched : r = .matched nodes d) {open_ open' outer : List Frame}
    (base : inCode outer = true)
    (tracked : trackJob ctx.spacing open_ j = some open')
    (stands : Stands ctx.spacing open_ c.rest j) :
    Path (open_ ++ outer, c.rest) (open' ++ outer, d.rest) := by
  induction derives generalizing nodes d open_ open' outer with
  | @text ctx cs c d stripped =>
    cases matched
    obtain ⟨ahead, -⟩ := stripText?_eq_some_iff.1 stripped
    rw [trackJob, track_text] at tracked
    split at tracked
    next slash =>
      subst slash
      split at tracked
      next code =>
        cases tracked
        have comment := stands.2 rfl
        rw [ahead] at comment ⊢
        exact .single (step_word (inCode_append base code) (by decide) comment rfl)
      next => cases tracked
    next =>
      split at tracked
      next => cases tracked
      next =>
        rw [ahead]
        exact path_after base tracked
  | @char ctx k x rest pos holds =>
    cases matched
    rw [trackJob, track_char] at tracked
    split at tracked
    next checked =>
      cases tracked
      simp only [Bool.and_eq_true, bne_iff_ne] at checked
      exact .single (step_class (inCode_append base checked.1.1) checked.1.2 checked.2 holds)
    next => cases tracked
  | start | finish => cases tracked
  | opt _ ih =>
    cases matched
    obtain ⟨rfl, slash, inside⟩ := tracked_opt tracked
    exact ih rfl base inside (stands.inside slash)
  | optNone =>
    cases matched
    obtain ⟨rfl, -⟩ := tracked_opt tracked
    exact .refl
  | not =>
    cases matched
    obtain ⟨rfl, -⟩ := tracked_not tracked
    exact .refl
  | left _ ih =>
    cases matched
    exact ih rfl base (tracked_alt tracked).1 stands.left
  | right _ _ _ ih =>
    exact ih matched base (tracked_alt tracked).2 stands.right
  | @seq ctx a b c d e f first gap second one skipped two ih₁ ihGap ih₂ =>
    cases matched
    obtain ⟨slash, slash', middle, first, gap, second⟩ := tracked_seq tracked
    have here : Stands ctx.spacing open_ c.rest (.expr a) := by
      refine ⟨stands.1, fun own => ?_⟩
      obtain ⟨operation, free⟩ := slash own
      obtain ⟨rfl, rfl⟩ := eq_of_isOperation operation
      obtain ⟨-, -, _, above, ⟨⟩, rfl, code⟩ := tracked_rule first
      exact operation_apart (stands.1 free code) (.seq one skipped two)
    exact ((ih₁ rfl base first here).trans (ihGap rfl base (track_gap gap) trivial)).trans
      (ih₂ rfl base second (.of_gap skipped slash'))
  | @star ctx e c d f first rest _ _ ih₁ ih₂ =>
    cases matched
    obtain ⟨rfl, slash, gap, inside⟩ := tracked_star tracked
    exact (ih₁ rfl base inside (stands.inside slash)).trans (ih₂ rfl base tracked trivial)
  | starNone =>
    cases matched
    obtain ⟨rfl, -⟩ := tracked_star tracked
    exact .refl
  | @silent ctx r c result hidden body ih =>
    subst matched
    obtain ⟨rfl, stood, there, above, entered, rfl, code⟩ := tracked_rule tracked
    rw [List.append_assoc]
    by_cases textual : isTextual r = true
    · exact follows_textual entered textual (.silent hidden body)
    · have inside := track_body entered stood (Bool.not_eq_true _ ▸ textual)
      have stands := Stands.body entered code stands
      rw [hidden] at inside stands
      exact ih rfl (inCode_append base code) inside stands
  | @rule ctx r c d nodes given body ih =>
    cases matched
    obtain ⟨rfl, stood, there, above, entered, rfl, code⟩ := tracked_rule tracked
    rw [List.append_assoc]
    by_cases textual : isTextual r = true
    · exact follows_textual entered textual (.rule given body)
    · exact ih rfl (inCode_append base code)
        (track_body entered stood (Bool.not_eq_true _ ▸ textual))
        (Stands.body entered code stands)
  | @gap ctx c result free body ih =>
    have code : inCode open_ = true ∧ open_ = open' := by
      simpa [trackJob, free] using tracked
    obtain ⟨code, rfl⟩ := code
    cases matched.symm.trans ((Derives.gap free body).unique (derives_skip free c))
    exact path_clean (inCode_append base code) c.rest
  | noGap bound =>
    cases matched
    have same : open_ = open' := by simpa [trackJob, bound] using tracked
    exact same ▸ .refl
  | @more ctx e c d f h gap first rest skipped _ _ ihGap ih₁ ih₂ =>
    cases matched
    obtain ⟨rfl, slash, code, inside⟩ := tracked_star tracked
    exact ((ihGap rfl base (track_gap code) trivial).trans
      (ih₁ rfl base inside (.of_gap skipped slash))).trans
      (ih₂ rfl base tracked trivial)
  | moreEnd | moreGap =>
    cases matched
    obtain ⟨rfl, -⟩ := tracked_star tracked
    exact .refl
  | noText | noChar | charEnd | noStart | noFinish | notNone | seqFirst | seqGap | seqSecond |
    noRule =>
    cases matched

end Scriptlet.Grammar
