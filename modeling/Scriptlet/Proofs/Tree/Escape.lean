import Mathlib.Data.List.Induction
import Mathlib.Data.List.TakeWhile
import Scriptlet.Proofs.Layout.Expression

/-!
Escapes of raw texts.

A raw text has an escape at every backslash that is not the letter of an escape itself. Main
statement: a raw text has a meaning if and only if all of its escapes are well-formed or lax, and
otherwise the first one that is neither is reported. Lax are the escapes by byte with one digit and
those of a code beyond the last character.
-/

namespace Scriptlet.Tree

open Grammar (bytes bytes_append bytes_cons takeBytes)

/-! ### Hexadecimal digits -/

/-- A hexadecimal digit, of either case, and its value. -/
def DigitValue (d : Char) (v : Nat) : Prop :=
  v < 16 ∧ (d = v.digitChar ∨ d = v.digitChar.toUpper)

/-- Hexadecimal digits and the number that they are. -/
inductive Hexadecimal : List Char → Nat → Prop where
  | nil : Hexadecimal [] 0
  | snoc {ds : List Char} {d : Char} {n v : Nat} :
      Hexadecimal ds n → DigitValue d v → Hexadecimal (ds ++ [d]) (16 * n + v)

variable {ds after rest cs : List Char} {c d letter : Char} {n v count : Nat}

instance : Decidable (DigitValue d v) :=
  inferInstanceAs (Decidable (v < 16 ∧ (d = v.digitChar ∨ d = v.digitChar.toUpper)))

theorem DigitValue.reads (value : DigitValue d v) :
    Grammar.CharClass.hexDigit.holds d = true ∧ Number.digitValue? d = some v := by
  have lower : ∀ v < 16, Grammar.CharClass.hexDigit.holds v.digitChar = true ∧
      Number.digitValue? v.digitChar = some v := by decide
  have upper : ∀ v < 16, Grammar.CharClass.hexDigit.holds v.digitChar.toUpper = true ∧
      Number.digitValue? v.digitChar.toUpper = some v := by decide
  obtain ⟨small, rfl | rfl⟩ := value
  · exact lower v small
  · exact upper v small

theorem exists_digitValue (digit : Grammar.CharClass.hexDigit.holds d = true) :
    ∃ v, DigitValue d v := by
  have all : ∀ n < 128, Grammar.CharClass.hexDigit.holds (Char.ofNat n) = true →
      ∃ v < 16, DigitValue (Char.ofNat n) v := by decide
  have small : d.toNat < 128 := by
    simp only [Grammar.CharClass.holds, Char.isDigit, Bool.or_eq_true, Bool.and_eq_true,
      decide_eq_true_eq, Char.le_def, UInt32.le_iff_toNat_le] at digit
    have ends : '9'.val.toNat = 57 ∧ 'f'.val.toNat = 102 ∧ 'F'.val.toNat = 70 := ⟨rfl, rfl, rfl⟩
    change d.val.toNat < 128
    omega
  obtain ⟨v, -, value⟩ := all d.toNat small (by rwa [Char.ofNat_toNat])
  rw [Char.ofNat_toNat] at value
  exact ⟨v, value⟩

theorem hexValue_concat (ds : List Char) (d : Char) :
    hexValue (ds ++ [d]) = hexValue ds * 16 + (Number.digitValue? d).getD 0 := by
  simp [hexValue]

/-- Digits are read as the number that they are. -/
theorem hexadecimal_iff : Hexadecimal ds n ↔
    (∀ d ∈ ds, Grammar.CharClass.hexDigit.holds d = true) ∧ hexValue ds = n := by
  constructor
  · intro number
    induction number with
    | nil => exact ⟨List.forall_mem_nil _, rfl⟩
    | @snoc ds d n v _ value ih =>
      rw [hexValue_concat, ih.2, value.reads.2]
      refine ⟨List.forall_mem_append.2 ⟨ih.1, List.forall_mem_singleton.2 value.reads.1⟩, ?_⟩
      simp [Nat.mul_comm]
  · rintro ⟨digits, rfl⟩
    induction ds using List.reverseRecOn with
    | nil => exact .nil
    | append_singleton ds d ih =>
      obtain ⟨first, last⟩ := List.forall_mem_append.1 digits
      obtain ⟨v, value⟩ := exists_digitValue (last d (List.mem_singleton_self d))
      rw [hexValue_concat, value.reads.2, Nat.mul_comm]
      exact .snoc (ih first) value

/-- A text that starts with digits and goes on with something else has those digits at its start. -/
theorem takeWhile_hexadecimal (number : Hexadecimal ds n)
    (ends : ∀ c ∈ after.head?, Grammar.CharClass.hexDigit.holds c = false) :
    (ds ++ after).takeWhile Grammar.CharClass.hexDigit.holds = ds := by
  rw [List.takeWhile_append_of_pos (hexadecimal_iff.1 number).1]
  cases after with
  | nil => simp
  | cons c after => simp [ends c rfl]

theorem hexRun_hexadecimal (number : Hexadecimal ds n) (after : List Char) :
    hexRun ds.length (ds ++ after) = ds := by
  rw [hexRun, List.take_left]
  exact List.takeWhile_eq_self_iff.2 (hexadecimal_iff.1 number).1

theorem hexRun_cons (count : Nat) (c : Char) (rest : List Char) : hexRun (count + 1) (c :: rest) =
    if Grammar.CharClass.hexDigit.holds c then c :: hexRun count rest else [] := by
  simp [hexRun, List.takeWhile_cons]

theorem hexadecimal_hexRun (count : Nat) (rest : List Char) :
    Hexadecimal (hexRun count rest) (hexValue (hexRun count rest)) :=
  hexadecimal_iff.2 ⟨fun _ member => List.mem_takeWhile_imp member, rfl⟩

/-- Digits are read up to what is none, or up to the number of them that is asked for. -/
theorem exists_hexRun (count : Nat) (rest : List Char) :
    ∃ after, rest = hexRun count rest ++ after ∧
    ((hexRun count rest).length = count ∨ (hexRun count rest).length < count ∧
      ∀ c ∈ after.head?, Grammar.CharClass.hexDigit.holds c = false) := by
  induction count generalizing rest with
  | zero => exact ⟨rest, by simp [hexRun]⟩
  | succ count ih =>
    cases rest with
    | nil => exact ⟨[], by simp [hexRun]⟩
    | cons c rest =>
      rw [hexRun_cons]
      split
      next digit =>
        obtain ⟨after, cut, ends⟩ := ih rest
        refine ⟨after, by rw [List.cons_append, ← cut], ?_⟩
        simpa using ends
      next other => exact ⟨c :: rest, rfl, .inr ⟨Nat.succ_pos _, by simpa using other⟩⟩

theorem ne_backslash_of_hexDigit (digit : Grammar.CharClass.hexDigit.holds d = true) :
    d ≠ '\\' := by
  rintro rfl
  cases digit

theorem Hexadecimal.backslash_not_mem (number : Hexadecimal ds n) : '\\' ∉ ds :=
  fun member => ne_backslash_of_hexDigit ((hexadecimal_iff.1 number).1 _ member) rfl

/-! ### Escapes -/

/-- An escape: the place of its backslash, and the text behind that. -/
structure Escape where
  place : Nat
  ahead : List Char

/-- The escapes of a raw text at a place. The character behind the backslash belongs to the escape,
and so starts none. -/
def escapes (place : Nat) : List Char → List Escape
  | [] => []
  | ['\\'] => [⟨place, []⟩]
  | '\\' :: letter :: rest => ⟨place, letter :: rest⟩ :: escapes (place + 1 + letter.utf8Size) rest
  | c :: rest => escapes (place + c.utf8Size) rest

/-- The texts that may stand behind the backslash of an escape. -/
inductive WellFormed : List Char → Prop where
  | byte {ds after : List Char} {n : Nat} :
      Hexadecimal ds n → ds.length = 2 → WellFormed ('x' :: (ds ++ after))
  | unit {ds after : List Char} {n : Nat} :
      Hexadecimal ds n → ds.length = 4 → WellFormed ('u' :: (ds ++ after))
  | code {ds after : List Char} {n : Nat} : Hexadecimal ds n → ds ≠ [] → n ≤ 0x10FFFF →
      WellFormed ('u' :: '\x7b' :: (ds ++ '\x7d' :: after))
  | letter {c : Char} {after : List Char} : c ≠ 'x' → c ≠ 'u' → WellFormed (c :: after)

/-- The texts that should not stand there and are read all the same: one digit for a byte, and the
code of no character that fits a word. -/
inductive Lax : List Char → Prop where
  | byte {d : Char} {after : List Char} {v : Nat} : DigitValue d v →
      (∀ c ∈ after.head?, Grammar.CharClass.hexDigit.holds c = false) → Lax ('x' :: d :: after)
  | code {ds after : List Char} {n : Nat} : Hexadecimal ds n → 0x10FFFF < n → n < Nat.pow 2 32 →
      Lax ('u' :: '\x7b' :: (ds ++ '\x7d' :: after))

/-- The texts behind a backslash that are read. -/
def Readable (ahead : List Char) : Prop :=
  WellFormed ahead ∨ Lax ahead

/-- An escape by byte is read if it has a digit. -/
theorem readable_byte_iff : Readable ('x' :: rest) ↔ hexRun 2 rest ≠ [] := by
  constructor
  · rintro (formed | lax)
    · cases formed with
      | @byte ds after n number two =>
        have run := hexRun_hexadecimal number after
        rw [two] at run
        rw [run]
        exact List.ne_nil_of_length_pos (by omega)
      | letter other => exact absurd rfl other
    · cases lax with
      | byte value => simp [hexRun_cons, value.reads.1]
  · intro given
    obtain ⟨after, cut, ends⟩ := exists_hexRun 2 rest
    have number := hexadecimal_hexRun 2 rest
    generalize hexRun 2 rest = ds at *
    subst cut
    rcases ends with two | ⟨few, ends⟩
    · exact .inl (.byte number two)
    · match ds with
      | [] => exact absurd rfl given
      | [d] =>
        obtain ⟨v, value⟩ :=
          exists_digitValue ((hexadecimal_iff.1 number).1 d (List.mem_singleton_self d))
        exact .inr (.byte value ends)
      | _ :: _ :: _ => exact absurd few (by simp)

/-- An escape by unit is read if it has four digits. -/
theorem readable_unit_iff (plain : rest.head? ≠ some '\x7b') :
    Readable ('u' :: rest) ↔ (hexRun 4 rest).length = 4 := by
  constructor
  · rintro (formed | lax)
    · cases formed with
      | @unit ds after n number four =>
        have run := hexRun_hexadecimal number after
        rw [four] at run
        rw [run, four]
      | code => exact absurd rfl plain
      | letter _ other => exact absurd rfl other
    · cases lax with
      | code => exact absurd rfl plain
  · intro four
    obtain ⟨after, cut, -⟩ := exists_hexRun 4 rest
    rw [cut]
    exact .inl (.unit (hexadecimal_hexRun 4 rest) four)

/-- An escape by code is read if it has digits and ends behind them, and the code fits a word. -/
theorem readable_code_iff {body ds : List Char}
    (digits : body.takeWhile Grammar.CharClass.hexDigit.holds = ds) :
    Readable ('u' :: '\x7b' :: body) ↔
      ds ≠ [] ∧ hexValue ds < Nat.pow 2 32 ∧ ∃ after, body.drop ds.length = '\x7d' :: after := by
  have word : 0x10FFFF < Nat.pow 2 32 := by decide
  constructor
  · have found {ds' after : List Char} {n : Nat} (number : Hexadecimal ds' n)
        (cut : body = ds' ++ '\x7d' :: after) (given : ds' ≠ []) (fits : n < Nat.pow 2 32) :
        ds ≠ [] ∧ hexValue ds < Nat.pow 2 32 ∧ ∃ after, body.drop ds.length = '\x7d' :: after := by
      have same : ds' = ds := by
        rw [← digits, cut, takeWhile_hexadecimal number (by simp +decide)]
      subst same
      rw [(hexadecimal_iff.1 number).2, cut, List.drop_left]
      exact ⟨given, fits, after, rfl⟩
    rintro (formed | lax)
    · generalize ahead : 'u' :: '\x7b' :: body = text at formed
      cases formed with
      | @unit ds' after n number four =>
        match ds' with
        | d :: ds' =>
          cases ahead
          have digit := (hexadecimal_iff.1 number).1 _ List.mem_cons_self
          cases digit
      | code number given small =>
        cases ahead
        exact found number rfl given (Nat.lt_of_le_of_lt small word)
      | byte => cases ahead
      | letter _ other =>
        cases ahead
        exact absurd rfl other
    · cases lax with
      | @code ds' after n number large fits =>
        refine found number rfl ?_ fits
        rintro rfl
        obtain ⟨-, rfl⟩ := hexadecimal_iff.1 number
        exact absurd large (by decide)
  · rintro ⟨given, fits, after, ends⟩
    have prefix_ : ds <+: body := digits ▸ List.takeWhile_prefix _
    rw [← List.prefix_iff_eq_append.1 prefix_, ends]
    have number : Hexadecimal ds (hexValue ds) :=
      hexadecimal_iff.2 ⟨fun _ member => List.mem_takeWhile_imp (digits ▸ member), rfl⟩
    rcases Nat.lt_or_ge 0x10FFFF (hexValue ds) with large | small
    · exact .inr (.code number large fits)
    · exact .inl (.code number given small)

/-! ### The next escape -/

theorem escapes_cons (place : Nat) (plain : c ≠ '\\') :
    escapes place (c :: rest) = escapes (place + c.utf8Size) rest := by
  rw [escapes]
  · exact fun same => absurd same plain
  · exact fun _ _ same => absurd same plain

/-- Without a backslash there is no escape. -/
theorem escapes_append (place : Nat) (plain : '\\' ∉ cs) :
    escapes place (cs ++ rest) = escapes (place + bytes cs) rest := by
  induction cs generalizing place with
  | nil => simp
  | cons c cs ih =>
    rw [List.mem_cons, not_or] at plain
    rw [List.cons_append, escapes_cons _ (Ne.symm plain.1), ih _ plain.2, bytes_cons, Nat.add_assoc]

/-- All escapes among the first characters of a text can be read, and none of them reaches
further. -/
def Passes (length : Nat) (rest : List Char) : Prop :=
  ∀ place, ∃ halves : List Escape,
    escapes place rest = halves ++ escapes (place + bytes (rest.take length)) (rest.drop length) ∧
      ∀ e ∈ halves, Readable e.ahead

theorem passes_of_plain {run : List Char} (plain : '\\' ∉ run) (rest : List Char) :
    Passes run.length (run ++ rest) := by
  intro place
  rw [List.take_left, List.drop_left]
  exact ⟨[], escapes_append place plain, List.forall_mem_nil _⟩

/-- The second half of a pair is an escape of its own. -/
theorem passes_pair {run : List Char} (plain : '\\' ∉ run) (number : Hexadecimal ds n)
    (four : ds.length = 4) : Passes (run.length + 6) (run ++ '\\' :: 'u' :: (ds ++ rest)) := by
  intro place
  have width : run.length + 6 = (run ++ '\\' :: 'u' :: ds).length := by
    simp only [List.length_append, List.length_cons]
    omega
  have cut : run ++ '\\' :: 'u' :: (ds ++ rest) = (run ++ '\\' :: 'u' :: ds) ++ rest := by simp
  have place' : place + bytes (run ++ '\\' :: 'u' :: ds) =
      place + bytes run + 1 + 'u'.utf8Size + bytes ds := by
    rw [bytes_append, bytes_cons, bytes_cons]
    change _ = _ + 1 + 1 + _
    change _ + (_ + (1 + (1 + _))) = _
    omega
  refine ⟨[⟨place + bytes run, 'u' :: (ds ++ rest)⟩], ?_, ?_⟩
  · rw [escapes_append place plain, escapes, escapes_append _ number.backslash_not_mem, cut, width,
      List.take_left, List.drop_left, place']
    rfl
  · exact List.forall_mem_singleton.2 (.inl (.unit number four))

/-- The low half of a pair is an escape with four digits. -/
theorem lowSurrogate?_eq_some (low : lowSurrogate? rest = some n) : ∃ ds after,
    rest = '\\' :: 'u' :: (ds ++ after) ∧ Hexadecimal ds n ∧ ds.length = 4 ∧ 0xDC00 ≤ n ∧
    n < 0xE000 := by
  unfold lowSurrogate? at low
  split at low
  · rename_i rest
    simp only at low
    split at low
    next fits =>
      cases low
      obtain ⟨after, cut, -⟩ := exists_hexRun 4 rest
      exact ⟨_, after, by rw [← cut], hexadecimal_hexRun 4 rest, fits⟩
    next => cases low
  · cases low

theorem passes_joined {run : List Char} (plain : '\\' ∉ run) (code : Nat) (rest : List Char) :
    Passes (run.length + (joinSurrogates code rest).2) (run ++ rest) := by
  unfold joinSurrogates
  split
  · split
    next low found =>
      obtain ⟨ds, after, rfl, number, four, -⟩ := lowSurrogate?_eq_some found
      exact passes_pair plain number four
    next => exact passes_of_plain plain rest
  · exact passes_of_plain plain rest

/-- An escape that can be read goes on to where the next one may start, and one that cannot is
invalid. -/
def Checked (ahead rest : List Char) : Escaped → Prop
  | .chars _ length => Readable ahead ∧ Passes length rest
  | .invalid _ => ¬Readable ahead

theorem readUnit_braces_checked (body : List Char) :
    Checked ('u' :: '\x7b' :: body) ('\x7b' :: body) (readUnit ('\x7b' :: body)) := by
  have readable := readable_code_iff (Eq.refl (body.takeWhile Grammar.CharClass.hexDigit.holds))
  have digits : '\\' ∉ body.takeWhile Grammar.CharClass.hexDigit.holds :=
    fun member => ne_backslash_of_hexDigit (List.mem_takeWhile_imp member) rfl
  have cut :=
    List.prefix_iff_eq_append.1 (List.takeWhile_prefix (l := body) Grammar.CharClass.hexDigit.holds)
  unfold readUnit
  simp only
  generalize body.takeWhile Grammar.CharClass.hexDigit.holds = ds at *
  split
  next after ends =>
    rw [ends] at readable cut
    split
    next faulty =>
      intro ok
      obtain ⟨given, fits, -⟩ := readable.1 ok
      simp [given, Nat.not_le.2 fits] at faulty
    next sane =>
      rw [not_or, List.isEmpty_iff, Nat.not_le] at sane
      refine ⟨readable.2 ⟨sane.1, sane.2, after, rfl⟩, ?_⟩
      have plain : '\\' ∉ '\x7b' :: (ds ++ ['\x7d']) := by simp [digits]
      have passes := passes_joined plain (hexValue ds) after
      simpa [← cut] using passes
  next _ _ other ends =>
    intro ok
    obtain ⟨-, -, after, same⟩ := readable.1 ok
    exact other (List.cons.inj (ends.symm.trans same)).1
  next ends =>
    intro ok
    obtain ⟨-, -, after, same⟩ := readable.1 ok
    rw [ends] at same
    cases same

theorem readUnit_checked (rest : List Char) : Checked ('u' :: rest) rest (readUnit rest) := by
  by_cases brace : rest.head? = some '\x7b'
  · obtain ⟨body, rfl⟩ := List.head?_eq_some_iff.1 brace
    exact readUnit_braces_checked body
  · have readable : Readable ('u' :: rest) ↔ (hexRun 4 rest).length = 4 := readable_unit_iff brace
    obtain ⟨after, cut, -⟩ := exists_hexRun 4 rest
    unfold readUnit
    split
    next body => exact absurd rfl brace
    next =>
      simp only
      split
      next four =>
        refine ⟨readable.2 four, ?_⟩
        have passes := passes_joined (hexadecimal_hexRun 4 rest).backslash_not_mem
          (hexValue (hexRun 4 rest)) after
        rw [← cut, four] at passes
        have behind : rest.drop 4 = after := by
          have all : (hexRun 4 rest ++ after).drop (hexRun 4 rest).length = after := List.drop_left
          rwa [← cut, four] at all
        rwa [behind]
      next few => exact fun ok => few (readable.1 ok)

theorem readEscape_checked (letter : Char) (rest : List Char) :
    Checked (letter :: rest) rest (readEscape letter rest) := by
  have alone : Passes 0 rest := passes_of_plain (List.not_mem_nil : '\\' ∉ []) rest
  unfold readEscape
  split
  case h_11 =>
    -- a line feed behind the carriage return belongs to the escape
    refine ⟨.inl (.letter (by decide) (by decide)), ?_⟩
    split
    next feed =>
      obtain ⟨after, rfl⟩ := List.head?_eq_some_iff.1 feed
      exact passes_of_plain (by decide : '\\' ∉ ['\n']) after
    next => exact alone
  case h_12 =>
    obtain ⟨after, cut, -⟩ := exists_hexRun 2 rest
    simp only
    split
    next none => exact fun ok => readable_byte_iff.1 ok (List.isEmpty_iff.1 none)
    next given =>
      refine ⟨readable_byte_iff.2 fun none => given (List.isEmpty_iff.2 none), ?_⟩
      have passes := passes_of_plain (hexadecimal_hexRun 2 rest).backslash_not_mem after
      rwa [← cut] at passes
  case h_13 => exact readUnit_checked rest
  case h_14 ne_byte ne_unit => exact ⟨.inl (.letter ne_byte ne_unit), alone⟩
  all_goals exact ⟨.inl (.letter (by decide) (by decide)), alone⟩

/-! ### Main statement -/

/-- An error about the first escape that cannot be read: its place, and the text from there on. -/
def Reports (e : BuildError) (all : List Escape) : Prop :=
  ∃ before bad after, all = before ++ bad :: after ∧ (∀ x ∈ before, Readable x.ahead) ∧
    ¬Readable bad.ahead ∧ e.span.start = bad.place ∧
    e.cause =
      .invalidEscape (String.ofList (takeBytes (e.span.stop - e.span.start) ('\\' :: bad.ahead)))

theorem Reports.behind {e : BuildError} {first all : List Escape} (reports : Reports e all)
    (readable : ∀ x ∈ first, Readable x.ahead) : Reports e (first ++ all) := by
  obtain ⟨before, bad, after, rfl, earlier, rest⟩ := reports
  exact ⟨first ++ before, bad, after, by simp, List.forall_mem_append.2 ⟨readable, earlier⟩, rest⟩

/-- A raw text has a meaning and all its escapes can be read, or the first one that cannot is
reported. -/
def Settled (all : List Escape) : Except BuildError (List Char) → Prop
  | .ok _ => ∀ x ∈ all, Readable x.ahead
  | .error e => Reports e all

theorem Settled.behind {all first : List Escape} {m : Except BuildError (List Char)}
    (settled : Settled all m)
    (readable : ∀ x ∈ first, Readable x.ahead) (add : List Char → List Char) :
    Settled (first ++ all) (m.map add) := by
  cases m with
  | ok value => exact List.forall_mem_append.2 ⟨readable, settled⟩
  | error e => exact Reports.behind settled readable

/-- An escape is read, and then what stands behind it. -/
theorem unescapeFrom_escape_settled {fuel : Nat} {rest : List Char}
    (next : ∀ {cs : List Char}, cs.length < fuel → ∀ index,
      Settled (escapes index cs) (unescapeFrom fuel index cs))
    (enough : rest.length < fuel) (letter : Char) (index : Nat) :
    Settled (escapes index ('\\' :: letter :: rest))
      (unescapeFrom (fuel + 1) index ('\\' :: letter :: rest)) := by
  have checked := readEscape_checked letter rest
  rw [unescapeFrom]
  cases read : readEscape letter rest with
  | invalid length =>
    rw [read] at checked
    refine ⟨[], ⟨index, letter :: rest⟩, _, rfl, List.forall_mem_nil _, checked, rfl, ?_⟩
    simp only [Nat.add_sub_cancel_left]
  | chars value length =>
    rw [read] at checked
    obtain ⟨readable, passes⟩ := checked
    obtain ⟨halves, cut, each⟩ := passes (index + 1 + letter.utf8Size)
    have shorter : (rest.drop length).length < fuel := by
      rw [List.length_drop]
      omega
    have later := (next shorter (index + 1 + letter.utf8Size + bytes (rest.take length))).behind
      (List.forall_mem_cons.2 ⟨readable, each⟩ :
        ∀ x ∈ (⟨index, letter :: rest⟩ : Escape) :: halves, Readable x.ahead) (value ++ ·)
    have width : index + (1 + letter.utf8Size + byteLength (rest.take length)) =
        index + 1 + letter.utf8Size + bytes (rest.take length) := by
      rw [byteLength_eq]
      omega
    simp only [width]
    rwa [List.cons_append, ← cut] at later

theorem unescapeFrom_settled {fuel : Nat} (enough : cs.length < fuel) (index : Nat) :
    Settled (escapes index cs) (unescapeFrom fuel index cs) := by
  induction fuel generalizing index cs with
  | zero => exact absurd enough (Nat.not_lt_zero _)
  | succ fuel ih =>
    match cs with
    | [] => exact List.forall_mem_nil _
    | c :: rest =>
      have shorter : rest.length < fuel := Nat.lt_of_succ_lt_succ enough
      by_cases plain : c = '\\'
      · subst plain
        match rest with
        | [] =>
          have unreadable : ¬Readable [] := by
            rintro (formed | lax)
            · cases formed
            · cases lax
          refine ⟨[], ⟨index, []⟩, [], rfl, List.forall_mem_nil _, unreadable, rfl, ?_⟩
          simp only [Nat.add_sub_cancel_left]
          rfl
        | letter :: rest =>
          exact unescapeFrom_escape_settled ih (Nat.lt_of_succ_lt shorter) letter index
      · rw [escapes_cons _ plain, unescapeFrom]
        · exact (ih shorter _).behind (List.forall_mem_nil _) _
        · exact plain

/-- A raw text has a meaning if and only if each of its escapes is well-formed or lax. Otherwise the
first one that is neither is reported: the error starts at its backslash and tells its text. -/
theorem escapes_checked (raw : String) (index : Nat) :
    ((∃ text, unescape raw index = .ok text) ↔
        ∀ x ∈ escapes index raw.toList, WellFormed x.ahead ∨ Lax x.ahead) ∧
      ∀ e, unescape raw index = .error e → Reports e (escapes index raw.toList) := by
  have settled := unescapeFrom_settled (Nat.lt_succ_self raw.toList.length) index
  unfold unescape
  simp only
  cases read : unescapeFrom (raw.toList.length + 1) index raw.toList with
  | ok value =>
    rw [read] at settled
    exact ⟨⟨fun _ => settled, fun _ => ⟨_, rfl⟩⟩, fun _ failed => nomatch failed⟩
  | error e =>
    rw [read] at settled
    refine ⟨⟨fun ⟨_, ok⟩ => (nomatch ok), fun all => ?_⟩,
      fun _ failed => by cases failed; exact settled⟩
    obtain ⟨before, bad, after, eq, -, unreadable, -⟩ := settled
    rw [eq] at all
    exact absurd (all bad (by simp)) unreadable

example : unescape "\\x4" 0 = .ok "\x04" ∧ unescape "\\u\x7b110000\x7d" 0 = .ok "\uFFFD" ∧
    unescape "é\\uD83D\\uDE0" 1 = .error ⟨.invalidEscape "\\uDE0", ⟨9, 14⟩⟩ := by
  refine ⟨rfl, rfl, rfl⟩

end Scriptlet.Tree
