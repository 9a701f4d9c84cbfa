import Scriptlet.Proofs.Tree.Escape
import Scriptlet.Proofs.Tree.Literal

/-!
Spellings of texts.

Every character can be written in several ways in a literal: as it is, by an escape of one letter,
behind a backslash, and by its code in three widths. Line continuations may stand in between. Main
statement: a text is read from each of its spellings, whatever stands behind the single characters,
and the grammar takes a spelling as one token.
-/

namespace Scriptlet.Tree

/-- The letters that are escapes of a character, with that character. -/
def letterEscapes : List (Char × Char) :=
  [('n', '\n'), ('t', '\t'), ('r', '\r'), ('b', '\x08'), ('f', '\x0c'), ('v', '\x0b'),
    ('0', '\x00')]

/-- The characters that do not stand for themselves behind a backslash. -/
def meaningful : List Char :=
  letterEscapes.map (·.1) ++ ['x', 'u', '\n', '\r', '\u2028', '\u2029']

/-- Two code units that make up the code of a character. -/
structure Pairs (high low code : Nat) : Prop where
  high_ge : 0xD800 ≤ high
  high_lt : high < 0xDC00
  low_ge : 0xDC00 ≤ low
  low_lt : low < 0xE000
  code_eq : code = 0x10000 + (high - 0xD800) * 0x400 + (low - 0xDC00)

/-- The ways to write a character in a literal, in front of a raw text. -/
inductive Spells (form : Literal) (after : List Char) (c : Char) : List Char → Prop where
  | plain : form.Plain c after → Spells form after c [c]
  | letter {l : Char} : (l, c) ∈ letterEscapes → Spells form after c ['\\', l]
  | itself : c ∉ meaningful → Spells form after c ['\\', c]
  | byte {ds : List Char} : Hexadecimal ds c.toNat → ds.length = 2 →
      Spells form after c ('\\' :: 'x' :: ds)
  | unit {ds : List Char} : Hexadecimal ds c.toNat → ds.length = 4 →
      Spells form after c ('\\' :: 'u' :: ds)
  | pair {hs ls : List Char} {high low : Nat} : Hexadecimal hs high → hs.length = 4 →
      Hexadecimal ls low → ls.length = 4 → Pairs high low c.toNat →
      Spells form after c ('\\' :: 'u' :: (hs ++ '\\' :: 'u' :: ls))
  | code {ds : List Char} : Hexadecimal ds c.toNat → ds ≠ [] →
      Spells form after c ('\\' :: 'u' :: '\x7b' :: (ds ++ ['\x7d']))

/-- The line continuations, in front of a raw text. A line feed behind a carriage return belongs to
it. -/
inductive Continues (after : List Char) : List Char → Prop where
  | lineFeed : Continues after ['\\', '\n']
  | carriageReturn : after.head? ≠ some '\n' → Continues after ['\\', '\r']
  | both : Continues after ['\\', '\r', '\n']
  | lineSeparator : Continues after ['\\', '\u2028']
  | paragraphSeparator : Continues after ['\\', '\u2029']

/-- The raw texts that spell a text: its characters in order, each in one of its ways, with line
continuations in between. -/
inductive Spelled (form : Literal) : List Char → List Char → Prop where
  | nil : Spelled form [] []
  | char {c : Char} {cs piece after : List Char} : Spells form after c piece →
      Spelled form cs after → Spelled form (c :: cs) (piece ++ after)
  | continuation {cs piece after : List Char} : Continues after piece →
      Spelled form cs after → Spelled form cs (piece ++ after)

variable {form : Literal} {c : Char} {cs ds piece after : List Char} {n : Nat}

/-! ### Codes -/

theorem charOfCode_toNat (c : Char) : charOfCode c.toNat = c :=
  (if_pos c.valid).trans (Char.ofNat_toNat c)

/-- The code of a character is no half of a pair. -/
theorem joinSurrogates_toNat (c : Char) (after : List Char) :
    joinSurrogates c.toNat after = (c, 0) := by
  have valid : c.toNat < 0xD800 ∨ 0xDFFF < c.toNat ∧ c.toNat < 0x110000 := c.valid
  rw [joinSurrogates, if_neg (by omega), charOfCode_toNat]

theorem lowSurrogate?_hexadecimal (number : Hexadecimal ds n) (four : ds.length = 4)
    (low : 0xDC00 ≤ n ∧ n < 0xE000) (after : List Char) :
    lowSurrogate? ('\\' :: 'u' :: (ds ++ after)) = some n := by
  have run := hexRun_hexadecimal number after
  rw [four] at run
  simp only [lowSurrogate?, run, (hexadecimal_iff.1 number).2]
  exact if_pos ⟨four, low⟩

/-- The two halves of a pair are read as one character. -/
theorem joinSurrogates_pair {high low : Nat} (pairs : Pairs high low c.toNat)
    (number : Hexadecimal ds low)
    (four : ds.length = 4) (after : List Char) :
    joinSurrogates high ('\\' :: 'u' :: (ds ++ after)) = (c, 6) := by
  have found := lowSurrogate?_hexadecimal number four ⟨pairs.low_ge, pairs.low_lt⟩ after
  rw [joinSurrogates, if_pos ⟨pairs.high_ge, pairs.high_lt⟩, found]
  simp only
  rw [← pairs.code_eq, charOfCode_toNat]

theorem readUnit_four (number : Hexadecimal ds n) (four : ds.length = 4) (after : List Char) :
    readUnit (ds ++ after) =
      .chars [(joinSurrogates n after).1] (4 + (joinSurrogates n after).2) := by
  have run := hexRun_hexadecimal number after
  have behind : (ds ++ after).drop ds.length = after := List.drop_left
  rw [four] at run behind
  unfold readUnit
  split
  next body brace =>
    match ds with
    | d :: ds =>
      cases brace
      have digit := (hexadecimal_iff.1 number).1 _ List.mem_cons_self
      cases digit
  next => simp only [run, behind, (hexadecimal_iff.1 number).2, if_pos four]

theorem readUnit_code (number : Hexadecimal ds n) (given : ds ≠ []) (fits : n < Nat.pow 2 32)
    (after : List Char) : readUnit ('\x7b' :: (ds ++ '\x7d' :: after)) =
      .chars [(joinSurrogates n after).1] (ds.length + 2 + (joinSurrogates n after).2) := by
  have digits : (ds ++ '\x7d' :: after).takeWhile Grammar.CharClass.hexDigit.holds = ds :=
    takeWhile_hexadecimal number (by simp +decide)
  simp only [readUnit, digits, List.drop_left, (hexadecimal_iff.1 number).2]
  rw [if_neg]
  rw [List.isEmpty_iff, not_or, Nat.not_le]
  exact ⟨given, fits⟩

/-! ### Single escapes -/

/-- An escape that is read as the given characters, with nothing of what stands behind it. -/
def Gives (piece value after : List Char) : Prop :=
  ∃ letter tail, piece = '\\' :: letter :: tail ∧
    readEscape letter (tail ++ after) = .chars value tail.length

theorem unescapeFrom_gives {value : List Char} (gives : Gives piece value after)
    (fuel index : Nat) :
    ∃ width, unescapeFrom (fuel + 1) index (piece ++ after) =
      (unescapeFrom fuel (index + width) after).map (value ++ ·) := by
  obtain ⟨letter, tail, rfl, read⟩ := gives
  refine ⟨1 + letter.utf8Size + byteLength tail, ?_⟩
  rw [List.cons_append, List.cons_append, unescapeFrom]
  simp only [read, List.take_left, List.drop_left]

theorem readEscape_letter {l : Char} (member : (l, c) ∈ letterEscapes) (after : List Char) :
    readEscape l after = .chars [c] 0 := by
  simp only [letterEscapes, List.mem_cons, Prod.mk.injEq, List.not_mem_nil, or_false] at member
  rcases member with ⟨rfl, rfl⟩ | ⟨rfl, rfl⟩ | ⟨rfl, rfl⟩ | ⟨rfl, rfl⟩ | ⟨rfl, rfl⟩ | ⟨rfl, rfl⟩ |
    ⟨rfl, rfl⟩ <;>
    rfl

theorem readEscape_itself (other : c ∉ meaningful) (after : List Char) :
    readEscape c after = .chars [c] 0 := by
  unfold readEscape
  split
  case h_14 => rfl
  all_goals exact absurd (by decide) other

/-- A character is read from each of its spellings. -/
theorem Spells.gives (spells : Spells form after c piece) :
    piece = [c] ∧ c ≠ '\\' ∨ Gives piece [c] after := by
  cases spells with
  | plain plain => exact .inl ⟨rfl, Literal.ne_backslash_of_plain plain⟩
  | letter member => exact .inr ⟨_, [], rfl, readEscape_letter member after⟩
  | itself other => exact .inr ⟨c, [], rfl, readEscape_itself other after⟩
  | @byte ds number two =>
    refine .inr ⟨'x', ds, rfl, ?_⟩
    have run := hexRun_hexadecimal number after
    rw [two] at run
    have given : ds.isEmpty = false := by
      rw [List.isEmpty_eq_false_iff]
      exact List.ne_nil_of_length_pos (by omega)
    simp only [readEscape, run, given, (hexadecimal_iff.1 number).2, charOfCode_toNat]
    rfl
  | @unit ds number four =>
    refine .inr ⟨'u', ds, rfl, ?_⟩
    change readUnit (ds ++ after) = _
    rw [readUnit_four number four, joinSurrogates_toNat, four]
    rfl
  | @pair hs ls high low upper four lower four' pairs =>
    refine .inr ⟨'u', hs ++ '\\' :: 'u' :: ls, rfl, ?_⟩
    change readUnit (hs ++ '\\' :: 'u' :: ls ++ after) = _
    have joined := joinSurrogates_pair pairs lower four' after
    rw [List.append_assoc, List.cons_append, List.cons_append, readUnit_four upper four, joined]
    simp [four, four']
  | @code ds number given =>
    refine .inr ⟨'u', '\x7b' :: (ds ++ ['\x7d']), rfl, ?_⟩
    change readUnit ('\x7b' :: (ds ++ ['\x7d']) ++ after) = _
    have fits : c.toNat < Nat.pow 2 32 := c.val.toNat_lt
    rw [List.cons_append, List.append_assoc, List.singleton_append, readUnit_code number given fits,
      joinSurrogates_toNat]
    simp

/-- A line continuation is read as nothing. -/
theorem Continues.gives (continues : Continues after piece) : Gives piece [] after := by
  cases continues with
  | lineFeed => exact ⟨'\n', [], rfl, rfl⟩
  | carriageReturn other =>
    refine ⟨'\r', [], rfl, ?_⟩
    change Escaped.chars [] (if after.head? = some '\n' then 1 else 0) = _
    rw [if_neg other]
    rfl
  | both => exact ⟨'\r', ['\n'], rfl, rfl⟩
  | lineSeparator => exact ⟨'\u2028', [], rfl, rfl⟩
  | paragraphSeparator => exact ⟨'\u2029', [], rfl, rfl⟩

/-! ### Raw texts -/

theorem holds_escape {letter : Char} (other : letter ≠ '\r') (behind : form.Holds after) :
    form.Holds ('\\' :: letter :: after) :=
  .escape (fun cr => absurd cr other) behind

theorem holds_digits (number : Hexadecimal ds n) (behind : form.Holds after) :
    form.Holds (ds ++ after) :=
  behind.append fun d member => Literal.plain_hexDigit ((hexadecimal_iff.1 number).1 d member)

theorem Spells.holds (spells : Spells form after c piece) (behind : form.Holds after) :
    form.Holds (piece ++ after) := by
  cases spells with
  | plain plain => exact .plain plain behind
  | letter member =>
    refine holds_escape ?_ behind
    rintro rfl
    simp [letterEscapes] at member
  | itself other =>
    refine holds_escape ?_ behind
    rintro rfl
    exact other (by decide)
  | byte number two => exact holds_escape (by decide) (holds_digits number behind)
  | unit number four => exact holds_escape (by decide) (holds_digits number behind)
  | @pair hs ls _ _ upper _ lower _ pairs =>
    have second : form.Holds ('\\' :: 'u' :: (ls ++ after)) :=
      holds_escape (by decide) (holds_digits lower behind)
    have both : form.Holds ('\\' :: 'u' :: (hs ++ '\\' :: 'u' :: (ls ++ after))) :=
      holds_escape (by decide) (holds_digits upper second)
    simpa using both
  | @code ds number given =>
    have closed : form.Holds ('\x7d' :: after) :=
      .plain (Literal.plain_of_not_mem (by decide) _) behind
    have opened : form.Holds ('\x7b' :: (ds ++ '\x7d' :: after)) :=
      .plain (Literal.plain_of_not_mem (by decide) _) (holds_digits number closed)
    have all : form.Holds ('\\' :: 'u' :: '\x7b' :: (ds ++ '\x7d' :: after)) :=
      holds_escape (by decide) opened
    simpa using all

theorem Continues.holds (continues : Continues after piece) (behind : form.Holds after) :
    form.Holds (piece ++ after) := by
  cases continues with
  | lineFeed => exact holds_escape (by decide) behind
  | carriageReturn other => exact .escape (fun _ => other) behind
  | both => exact .lineEnd behind
  | lineSeparator => exact holds_escape (by decide) behind
  | paragraphSeparator => exact holds_escape (by decide) behind

/-- A spelling is a raw text of its literal. -/
theorem Spelled.holds {raw : List Char} (spelled : Spelled form cs raw) : form.Holds raw := by
  induction spelled with
  | nil => exact .nil
  | char spells _ ih => exact spells.holds ih
  | continuation continues _ ih => exact continues.holds ih

/-! ### Main statement -/

/-- An escape is read in one step, and leaves less to read. -/
theorem unescapeFrom_onward {value : List Char} (gives : Gives piece value after)
    (next : ∀ {fuel : Nat}, after.length < fuel → ∀ index, unescapeFrom fuel index after = .ok cs)
    {fuel : Nat} (enough : (piece ++ after).length < fuel) (index : Nat) :
    unescapeFrom fuel index (piece ++ after) = .ok (value ++ cs) := by
  obtain ⟨fuel, rfl⟩ := Nat.exists_eq_succ_of_ne_zero (Nat.ne_of_gt (Nat.zero_lt_of_lt enough))
  obtain ⟨width, read⟩ := unescapeFrom_gives gives fuel index
  obtain ⟨letter, tail, rfl, -⟩ := gives
  have shorter : after.length < fuel := by
    simp only [List.cons_append, List.length_cons, List.length_append] at enough
    omega
  rw [read, next shorter]
  rfl

theorem unescapeFrom_spelled {raw : List Char} (spelled : Spelled form cs raw) {fuel : Nat}
    (enough : raw.length < fuel) (index : Nat) : unescapeFrom fuel index raw = .ok cs := by
  induction spelled generalizing fuel index with
  | nil => cases fuel <;> rfl
  | @char c cs piece after spells _ ih =>
    rcases spells.gives with ⟨rfl, plain⟩ | gives
    · obtain ⟨fuel, rfl⟩ := Nat.exists_eq_succ_of_ne_zero (Nat.ne_of_gt (Nat.zero_lt_of_lt enough))
      rw [List.singleton_append, unescapeFrom, ih (Nat.lt_of_succ_lt_succ enough)]
      · rfl
      · exact plain
    · exact unescapeFrom_onward gives ih enough index
  | continuation continues _ ih => exact unescapeFrom_onward continues.gives ih enough index

/-- A text is what is read from each of its spellings, and where it is not an empty chunk, a
spelling is what the grammar takes as the raw text of the literal. -/
theorem unescape_spelled {text raw : String} (spelled : Spelled form text.toList raw.toList)
    (index : Nat) :
    unescape raw index = .ok text ∧ ((form = .template → raw ≠ "") → form.Takes raw) := by
  refine ⟨?_, Literal.takes_of_holds spelled.holds⟩
  have read := unescapeFrom_spelled spelled (Nat.lt_succ_self _) index
  unfold unescape
  simp only
  rw [read]
  simp [Except.map]

/-- Digits behind an escape by byte, a pair, a line continuation, and a dollar sign in front of an
escape by code. -/
theorem unescape_spelled_mixed :
    Spelled .template "A1😀$é".toList "\\x411\\uD83D\\udE00\\\n$\\u\x7b0e9\x7d".toList ∧
      unescape "\\x411\\uD83D\\udE00\\\n$\\u\x7b0e9\x7d" 7 = .ok "A1😀$é" ∧
      Literal.template.Takes "\\x411\\uD83D\\udE00\\\n$\\u\x7b0e9\x7d" := by
  have byte : Hexadecimal ['4', '1'] 'A'.toNat := hexadecimal_iff.2 ⟨List.all_eq_true.1 rfl, rfl⟩
  have high : Hexadecimal ['D', '8', '3', 'D'] 0xD83D :=
    hexadecimal_iff.2 ⟨List.all_eq_true.1 rfl, rfl⟩
  have low : Hexadecimal ['d', 'E', '0', '0'] 0xDE00 :=
    hexadecimal_iff.2 ⟨List.all_eq_true.1 rfl, rfl⟩
  have code : Hexadecimal ['0', 'e', '9'] 'é'.toNat :=
    hexadecimal_iff.2 ⟨List.all_eq_true.1 rfl, rfl⟩
  have pairs : Pairs 0xD83D 0xDE00 '😀'.toNat :=
    ⟨by decide, by decide, by decide, by decide, by decide⟩
  have one (after : List Char) : Literal.template.Plain '1' after :=
    ⟨by decide, fun dollar => absurd dollar.1 (by decide)⟩
  have dollar (after : List Char) : Literal.template.Plain '$' ('\\' :: after) :=
    ⟨by decide, fun brace => by simp at brace⟩
  have spelled :
      Spelled .template "A1😀$é".toList "\\x411\\uD83D\\udE00\\\n$\\u\x7b0e9\x7d".toList := by
    refine .char (.byte byte rfl) ?_
    refine .char (.plain (one _)) ?_
    refine .char (.pair high rfl low rfl pairs) ?_
    refine .continuation .lineFeed ?_
    refine .char (.plain (dollar _)) ?_
    exact .char (.code code (by decide)) .nil
  obtain ⟨read, taken⟩ := unescape_spelled spelled 7
  exact ⟨spelled, read, taken fun _ => by decide⟩

end Scriptlet.Tree
