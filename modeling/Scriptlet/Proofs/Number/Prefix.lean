import Mathlib.Data.List.Infix
import Scriptlet.Proofs.Number.Numeral

/-!
The numeral at the start of a text.

A scan keeps the characters with which a numeral can go on, and of these as many are taken as are a
numeral. No numeral is lost by the scan, so that this is the longest one that the text starts with.
Main statement: `parseFloat_longest`.
-/

namespace Scriptlet.Number

variable {cs ds rest : List Char} {c : Char} {n : Numeral} {st : Scan}

/-! ### The scan -/

namespace Scan

/-- The state after some characters, if a numeral can go on with all of them. -/
def after? (st : Scan) (ds : List Char) : Option Scan :=
  ds.foldlM step? st

theorem after?_append (st : Scan) (ds rest : List Char) :
    st.after? (ds ++ rest) = (st.after? ds).bind (·.after? rest) :=
  List.foldlM_append

theorem run_prefix (st : Scan) (cs : List Char) : st.run cs <+: cs := by
  induction cs generalizing st with
  | nil => exact List.prefix_rfl
  | cons c cs ih =>
    rw [run]
    split
    next next _ => exact List.prefix_cons_iff.2 (.inr ⟨_, rfl, ih next⟩)
    next => exact List.nil_prefix

/-- What a numeral can go on with is kept. -/
theorem prefix_run {last : Scan} (going : st.after? ds = some last) (start : ds <+: cs) :
    ds <+: st.run cs := by
  induction ds generalizing st cs with
  | nil => exact List.nil_prefix
  | cons c ds ih =>
    obtain ⟨rest, rfl⟩ := start
    obtain ⟨next, step, going⟩ := Option.bind_eq_some_iff.1 going
    rw [List.cons_append, run, step]
    exact List.cons_prefix_cons.2 ⟨rfl, ih going (List.prefix_append ds rest)⟩

/-- The state behind digits. -/
def digits (st : Scan) (ds : List Char) : Scan :=
  if ds.isEmpty then st else { st with first := false, digit := true, afterMark := false }

theorem after?_digits (st : Scan) (digital : Digital ds) : st.after? ds = some (st.digits ds) := by
  induction ds generalizing st with
  | nil => rfl
  | cons d ds ih =>
    have step : st.step? d = some (st.digits [d]) := if_pos (digital d List.mem_cons_self)
    change (st.step? d).bind (·.after? ds) = _
    rw [step, Option.bind_some, ih _ fun c member => digital c (List.mem_cons_of_mem d member)]
    unfold digits
    split <;> rfl

theorem after?_sign (st : Scan) (sign : Signum) (free : st.first = true ∨ st.afterMark = true) :
    ∃ next, st.after? sign.chars = some next ∧ next.digit = st.digit ∧ next.point = st.point ∧
      next.mark = st.mark := by
  have step (c : Char) (isSign : c = '+' ∨ c = '-') (no : c.isDigit = false) :
      st.after? [c] = some { st with first := false, afterMark := false } := by
    change (st.step? c).bind _ = _
    rw [step?, if_neg (by simp [no]), if_pos isSign, if_pos (by simpa using free)]
    rfl
  cases sign with
  | bare => exact ⟨st, rfl, rfl, rfl, rfl⟩
  | plus => exact ⟨_, step '+' (.inl rfl) rfl, rfl, rfl, rfl⟩
  | minus => exact ⟨_, step '-' (.inr rfl) rfl, rfl, rfl, rfl⟩

theorem after?_fraction (fraction : Option (List Char)) (digital : Digital (fraction.getD []))
    (noPoint : st.point = false) (noMark : st.mark = false) :
    ∃ next, st.after? (fraction.elim [] ('.' :: ·)) = some next ∧ next.mark = false ∧
      next.digit = (st.digit || !(fraction.getD []).isEmpty) := by
  cases fraction with
  | none => exact ⟨st, rfl, noMark, (Bool.or_false _).symm⟩
  | some ds =>
    have step : st.step? '.' = some { st with first := false, point := true } := by
      change (if st.point || st.mark then none else _) = _
      rw [noPoint, noMark]
      rfl
    refine ⟨{ st with first := false, point := true : Scan }.digits ds, ?_, ?_⟩
    · change (st.step? '.').bind (·.after? ds) = _
      rw [step]
      exact after?_digits _ digital
    · unfold digits
      cases ds with
      | nil => exact ⟨noMark, (Bool.or_false _).symm⟩
      | cons => exact ⟨noMark, (Bool.or_true _).symm⟩

theorem after?_power (power : Option Power) (digit : st.digit = true) (noMark : st.mark = false) :
    ∃ last, st.after? (power.elim [] Power.chars) = some last := by
  cases power with
  | none => exact ⟨st, rfl⟩
  | some p =>
    have apart : p.mark.isDigit = false ∧ ¬(p.mark = '+' ∨ p.mark = '-') ∧ p.mark ≠ '.' := by
      rcases p.isMark with mark | mark <;> rw [mark] <;> decide
    have step :
        st.step? p.mark = some { st with first := false, mark := true, afterMark := true } := by
      rw [step?, if_neg (by simp [apart.1]), if_neg apart.2.1, if_neg apart.2.2, if_pos p.isMark,
        digit, noMark]
      rfl
    obtain ⟨next, sign, -⟩ :=
      after?_sign { st with first := false, mark := true, afterMark := true } p.sign (.inr rfl)
    refine ⟨next.digits p.digits, ?_⟩
    change (st.step? p.mark).bind (·.after? (p.sign.chars ++ p.digits)) = _
    rw [step, Option.bind_some, after?_append, sign, Option.bind_some, after?_digits _ p.digital]

/-- A numeral can go on with all of its characters. -/
theorem after?_chars (n : Numeral) : ∃ last, after? {} n.chars = some last := by
  obtain ⟨signed, sign, noDigit, noPoint, noMark⟩ := after?_sign {} n.sign (.inl rfl)
  have whole := after?_digits signed n.digital.left
  have noPoint : (signed.digits n.whole).point = false := by unfold digits; split <;> exact noPoint
  have noMark : (signed.digits n.whole).mark = false := by unfold digits; split <;> exact noMark
  obtain ⟨unscaled, fraction, noMark, digit⟩ :=
    after?_fraction n.fraction n.digital.right noPoint noMark
  have digit : unscaled.digit = true := by
    rw [digit, Bool.or_eq_true, Bool.not_eq_true', List.isEmpty_eq_false_iff]
    by_contra none
    simp only [not_or, not_not] at none
    refine n.given (List.append_eq_nil_iff.2 ⟨?_, none.2⟩)
    by_contra given
    simp [digits, given] at none
  obtain ⟨last, power⟩ := after?_power n.power digit noMark
  refine ⟨last, ?_⟩
  rw [Numeral.chars, Numeral.body, Numeral.tail, after?_append, sign, Option.bind_some,
    after?_append, whole, Option.bind_some, after?_append, fraction, Option.bind_some, power]

end Scan

/-! ### The longest numeral -/

/-- No longer numeral is at the start of the text. -/
def Numeral.Longest (n : Numeral) (cs : List Char) : Prop :=
  n.chars <+: cs ∧ ∀ m : Numeral, m.chars <+: cs → m.chars.length ≤ n.chars.length

/-- The number of the longest numeral at the start of a text, or NaN if there is no numeral. -/
def Leads (cs : List Char) (x : Float) : Prop :=
  (∃ n : Numeral, n.Longest cs ∧ x = n.number) ∨ (∀ n : Numeral, ¬n.chars <+: cs) ∧ x = nan

theorem Leads.of_same {x : Float} (leads : Leads ds x)
    (same : ∀ n : Numeral, n.chars <+: ds ↔ n.chars <+: cs) : Leads cs x := by
  rcases leads with ⟨n, longest, number⟩ | ⟨none, isNan⟩
  · exact .inl ⟨n, ⟨(same n).1 longest.1, fun m start => longest.2 m ((same m).2 start)⟩, number⟩
  · exact .inr ⟨fun n start => none n ((same n).2 start), isNan⟩

theorem leads_readLongest (ds : List Char) : Leads ds (readLongest ds.reverse) := by
  induction ds using List.reverseRecOn with
  | nil => exact .inr ⟨fun n start => n.chars_ne_nil (List.prefix_nil.1 start), rfl⟩
  | append_singleton ds c ih =>
    rw [List.reverse_concat, readLongest, List.reverse_cons, List.reverse_reverse]
    cases read : readDecimal? (ds ++ [c]) with
    | some x =>
      obtain ⟨n, whole, rfl⟩ := readDecimal?_eq_some_iff.1 read
      refine .inl ⟨n, ⟨whole ▸ List.prefix_rfl, fun m start => ?_⟩, rfl⟩
      rw [whole]
      exact start.length_le
    | none =>
      refine ih.of_same fun n =>
        ⟨fun start => start.trans (List.prefix_append ds [c]), fun start => ?_⟩
      rcases List.prefix_concat_iff.1 start with whole | start
      · rw [← whole, n.readDecimal?_chars] at read
        cases read
      · exact start

/-- A text that starts with an infinity of the sign. -/
def LeadsInfinite (sign : Signum) (cs : List Char) : Prop :=
  sign.chars ++ "Infinity".toList <+: cs

/-- A text is read as the longest numeral at its start, blanks in front of it left out, unless it
starts with an infinity. -/
theorem parseFloat_longest (s : String) :
    (∃ sign, LeadsInfinite sign (Text.dropBlanks s.toList) ∧ parseFloat s = sign.apply infinity) ∨
      (∀ sign, ¬LeadsInfinite sign (Text.dropBlanks s.toList)) ∧
        ((∃ n : Numeral, n.Longest (Text.dropBlanks s.toList) ∧ parseFloat s = n.number) ∨
          (∀ n : Numeral, ¬n.chars <+: Text.dropBlanks s.toList) ∧ parseFloat s = nan) := by
  generalize trimmed : Text.dropBlanks s.toList = cs
  obtain ⟨sign, rest, text, taken, -⟩ := exists_takeSign cs
  have run : parseFloat s = if "Infinity".toList.isPrefixOf rest then sign.apply infinity
      else readLongest (Scan.run {} cs).reverse := by
    simp only [parseFloat, trimmed, taken]
    rfl
  by_cases infinite : "Infinity".toList <+: rest
  · rw [if_pos (List.isPrefixOf_iff_prefix.2 infinite)] at run
    exact .inl ⟨sign, text ▸ (List.prefix_append_right_inj _).2 infinite, run⟩
  · rw [if_neg (mt List.isPrefixOf_iff_prefix.1 infinite)] at run
    refine .inr ⟨fun other start => ?_, ?_⟩
    · obtain ⟨behind, text⟩ := start
      rw [← text, List.append_assoc, takeSign_chars other fun _ => ⟨by simp, by simp⟩] at taken
      exact infinite ⟨behind, congrArg Prod.snd taken⟩
    · rw [run]
      refine (leads_readLongest (Scan.run {} cs)).of_same fun n =>
        ⟨fun start => ?_, fun start => ?_⟩
      · exact start.trans (Scan.run_prefix {} cs)
      · obtain ⟨last, going⟩ := Scan.after?_chars n
        exact Scan.prefix_run going start

end Scriptlet.Number
