import Mathlib.Algebra.Order.Field.Basic
import Mathlib.Data.Rat.Cast.Defs
import Mathlib.Tactic.FinCases
import Scriptlet.Number.Layout
import Scriptlet.Proofs.Number.Numeral

/-!
Number texts as numerals.

Wherever the point of a decimal is put, and whatever zeros it takes to get there, the text is a
numeral that stands for the decimal, and the text of a numeral is read as its number. Main
statement: `text_spells`.
-/

namespace Scriptlet.Number

variable {cs ds : List Char} {c : Char}

/-! ### Reading the whole text of a numeral -/

theorem isDecimalChar_iff : isDecimalChar c = true ↔
    c.isDigit = true ∨ c = '.' ∨ c = 'e' ∨ c = 'E' ∨ c = '+' ∨ c = '-' := by
  simp [isDecimalChar, or_assoc]

theorem isDecimalChar_of_sign {sign : Signum} (member : c ∈ sign.chars) :
    isDecimalChar c = true := by
  cases sign with
  | bare => cases member
  | plus | minus => cases List.mem_singleton.1 member; rfl

theorem Digital.isDecimalChar (digital : Digital ds) (member : c ∈ ds) : isDecimalChar c = true :=
  isDecimalChar_iff.2 (.inl (digital c member))

theorem Power.isDecimalChar {p : Power} (member : c ∈ p.chars) : isDecimalChar c = true := by
  rcases List.mem_cons.1 member with rfl | member
  · exact isDecimalChar_iff.2 (.inr (.inr (p.isMark.imp_right .inl)))
  · exact (List.mem_append.1 member).elim isDecimalChar_of_sign p.digital.isDecimalChar

theorem Numeral.isDecimalChar {n : Numeral} (member : c ∈ n.chars) : isDecimalChar c = true := by
  rcases List.mem_append.1 member with member | member
  · exact isDecimalChar_of_sign member
  rcases List.mem_append.1 member with member | member
  · exact n.digital.left.isDecimalChar member
  rcases List.mem_append.1 member with member | member
  · have digital := n.digital.right
    cases point : n.fraction with
    | none =>
      rw [point] at member
      cases member
    | some ds =>
      rw [point] at member digital
      rcases List.mem_cons.1 member with rfl | member
      · rfl
      · exact digital.isDecimalChar member
  · cases power : n.power with
    | none =>
      rw [power] at member
      cases member
    | some p =>
      rw [power] at member
      exact p.isDecimalChar member

theorem toNat_of_isDecimalChar (decimal : isDecimalChar c = true) :
    0x21 ≤ c.toNat ∧ c.toNat < 0x85 := by
  rcases isDecimalChar_iff.1 decimal with digit | rfl | rfl | rfl | rfl | rfl
  · simp only [Char.isDigit, Bool.and_eq_true, decide_eq_true_eq] at digit
    have low : 48 ≤ c.toNat := digit.1
    have high : c.toNat ≤ 57 := digit.2
    omega
  all_goals decide

theorem not_blank_of_isDecimalChar (decimal : isDecimalChar c = true) :
    Text.blanks.contains c = false := by
  have range := toNat_of_isDecimalChar decimal
  unfold Text.CharSet.contains Text.blanks
  simp only [Text.CharSet.inside]
  repeat rw [if_neg (by omega)]
  rw [if_pos (by omega)]
  rfl

theorem dropBlanks_of_decimal (decimal : ∀ c ∈ cs, isDecimalChar c = true) :
    Text.dropBlanks cs = cs := by
  cases cs with
  | nil => rfl
  | cons c cs =>
    exact List.dropWhile_cons_of_neg
      (by simp [not_blank_of_isDecimalChar (decimal c List.mem_cons_self)])

theorem radixMark?_of_decimal (decimal : ∀ c ∈ cs, isDecimalChar c = true) :
    radixMark? cs = none := by
  unfold radixMark?
  split
  next c rest =>
    have apart : c ∉ ['x', 'X', 'o', 'O', 'b', 'B'] := by
      intro letter
      have member := decimal c (List.mem_cons_of_mem _ List.mem_cons_self)
      fin_cases letter <;> cases member
    simp only [List.mem_cons, List.not_mem_nil, or_false, not_or] at apart
    simp [apart]
  next => rfl

/-- A numeral that is a whole text is read as its number. -/
theorem ofText_chars (n : Numeral) : ofText (String.ofList n.chars) = n.number := by
  have decimal : ∀ c ∈ n.chars, isDecimalChar c = true := fun c member => n.isDecimalChar member
  have trimmed : Text.dropEndBlanks (Text.dropBlanks n.chars) = n.chars := by
    rw [dropBlanks_of_decimal decimal, Text.dropEndBlanks, dropBlanks_of_decimal,
      List.reverse_reverse]
    exact fun c member => decimal c (List.mem_reverse.1 member)
  have finite {s : List Char} (infinite : 'I' ∈ s) : n.chars ≠ s := by
    rintro rfl
    cases decimal _ infinite
  simp only [ofText, String.toList_ofList, trimmed, radixMark?_of_decimal decimal,
    List.all_eq_true.2 decimal, n.readDecimal?_chars]
  rw [if_neg (by simpa using n.chars_ne_nil),
    if_neg (not_or.2 ⟨finite (by decide), finite (by decide)⟩), if_neg (finite (by decide))]
  exact if_pos trivial

/-! ### Laying out digits -/

theorem natOfDigits_eq (ds : List Char) : natOfDigits ds = Nat.ofDigitChars 10 ds 0 := by
  rw [natOfDigits, Nat.ofDigitChars_eq_foldl]
  congr 1
  funext n c
  rw [Nat.mul_comm]

theorem digital_toDigits (n : Nat) : Digital (Nat.toDigits 10 n) :=
  fun _ member => Nat.isDigit_of_mem_toDigits (by decide) (by decide) member

theorem natOfDigits_toDigits (n : Nat) : natOfDigits (Nat.toDigits 10 n) = n := by
  rw [natOfDigits_eq, Nat.ofDigitChars_ten_toDigits]

theorem digital_zeros (n : Nat) : Digital (List.replicate n '0') := by
  intro c member
  rw [List.eq_of_mem_replicate member]
  rfl

theorem natOfDigits_zeros_append (n : Nat) (ds : List Char) :
    natOfDigits ('0' :: (List.replicate n '0' ++ ds)) = natOfDigits ds := by
  have front : '0' :: (List.replicate n '0' ++ ds) = List.replicate (n + 1) '0' ++ ds := rfl
  rw [front, natOfDigits_eq, Nat.ofDigitChars_append, Nat.ofDigitChars_replicate_zero, Nat.mul_zero,
    natOfDigits_eq]

theorem natOfDigits_append_zeros (ds : List Char) (n : Nat) :
    natOfDigits (ds ++ List.replicate n '0') = natOfDigits ds * 10 ^ n := by
  rw [natOfDigits_eq, Nat.ofDigitChars_append, Nat.ofDigitChars_replicate_zero, ← natOfDigits_eq,
    Nat.mul_comm]

/-- Digits with a point are a numeral. Where they end before the point, there are zeros up to it. -/
theorem withPoint_spells (sign : Signum) (digital : Digital ds) (given : ds ≠ []) (point : Int) :
    ∃ n : Numeral, n.sign = sign ∧ n.power = none ∧ n.body = Layout.withPoint false ds point ∧
      n.significand = natOfDigits ds * 10 ^ (point - ds.length).toNat ∧
      n.exponent = min (point - ds.length) 0 := by
  unfold Layout.withPoint
  simp only
  by_cases whole : (ds.length : Int) ≤ point
  · rw [if_pos whole]
    have zeros := digital_zeros (point - ds.length).toNat
    refine ⟨⟨sign, ds ++ List.replicate (point - ds.length).toNat '0', none, none, ?_, ?_⟩, rfl,
      rfl, rfl, ?_, ?_⟩
    · exact (digital.append zeros).append digital_nil
    · simp [given]
    · simp only [Numeral.significand, Option.getD_none, List.append_nil]
      exact natOfDigits_append_zeros ds _
    · change (0 : Int) - (0 : Nat) = _
      omega
  · have pad : (point - ds.length).toNat = 0 := by omega
    rw [if_neg whole, pad, Nat.pow_zero, Nat.mul_one]
    by_cases inside : 0 < point
    · rw [if_pos inside]
      have parts := List.take_append_drop point.toNat ds
      refine ⟨⟨sign, ds.take point.toNat, some (ds.drop point.toNat), none, ?_, ?_⟩, rfl, rfl,
        ?_, ?_, ?_⟩
      · exact parts.symm ▸ digital
      · exact parts.symm ▸ given
      · simp [Numeral.body, Numeral.tail]
      · exact congrArg natOfDigits parts
      · simp only [Numeral.exponent, Option.elim_none, Option.getD_some, List.length_drop]
        omega
    · rw [if_neg inside]
      refine ⟨⟨sign, ['0'], some (List.replicate (-point).toNat '0' ++ ds), none, ?_, ?_⟩, rfl, rfl,
        ?_, ?_, ?_⟩
      · exact Digital.append (digital_zeros 1) ((digital_zeros _).append digital)
      · exact List.append_ne_nil_of_left_ne_nil (List.cons_ne_nil _ _) _
      · simp [Numeral.body, Numeral.tail]
      · exact natOfDigits_zeros_append _ ds
      · simp only [Numeral.exponent, Option.elim_none, Option.getD_some, List.length_append,
          List.length_replicate]
        omega

/-- The power of ten that is written for an order. -/
def Power.ofOrder (order : Int) : Power where
  mark := 'e'
  sign := if 0 ≤ order then .plus else .minus
  digits := Nat.toDigits 10 order.natAbs
  isMark := .inl rfl
  digital := digital_toDigits _
  given := Nat.toDigits_ne_nil

theorem Power.value_ofOrder (order : Int) : (ofOrder order).value = order := by
  simp only [value, ofOrder, natOfDigits_toDigits]
  split <;> simp only [Signum.negative, if_true, Bool.false_eq_true, if_false] <;> omega

/-- Digits with the point behind the first one, and a power of ten, are a numeral. -/
theorem withExponent_spells (sign : Signum) (digital : Digital ds) (given : ds ≠ []) (order : Int) :
    ∃ n : Numeral, n.sign = sign ∧ n.power ≠ none ∧ n.body = Layout.withExponent ds order ∧
      n.significand = natOfDigits ds ∧ n.exponent = order - ds.length + 1 := by
  have parts := List.take_append_drop 1 ds
  have first : (ds.take 1).length = 1 := by
    rw [List.length_take]
    exact Nat.min_eq_left (List.length_pos_of_ne_nil given)
  have power : Power.chars (.ofOrder order) =
      'e' :: (if 0 ≤ order then '+' else '-') :: Nat.toDigits 10 order.natAbs := by
    simp only [Power.chars, Power.ofOrder]
    split <;> rfl
  unfold Layout.withExponent
  by_cases single : ds.drop 1 = []
  · rw [single, List.append_nil] at parts
    refine ⟨⟨sign, ds, none, some (.ofOrder order), ?_, ?_⟩, rfl, Option.some_ne_none _, ?_, ?_, ?_⟩
    · exact digital.append digital_nil
    · simpa using given
    · simp [Numeral.body, Numeral.tail, power, single, parts]
    · simp only [Numeral.significand, Option.getD_none, List.append_nil]
    · rw [parts] at first
      simp [Numeral.exponent, Power.value_ofOrder, first]
  · refine ⟨⟨sign, ds.take 1, some (ds.drop 1), some (.ofOrder order), ?_, ?_⟩, rfl,
      Option.some_ne_none _, ?_, ?_, ?_⟩
    · exact parts.symm ▸ digital
    · exact parts.symm ▸ given
    · simp only [Numeral.body, Numeral.tail, Option.elim_some, power,
        List.isEmpty_eq_false_iff.2 single]
      simp
    · exact congrArg natOfDigits parts
    · simp only [Numeral.exponent, Option.elim_some, Power.value_ofOrder, Option.getD_some,
        List.length_drop]
      have positive := List.length_pos_of_ne_nil given
      omega

/-- A decimal that is laid out without `.0` is a numeral of its value. -/
theorem Layout.decimal_spells (l : Layout) (unpointed : l.pointed = false) (sign : Signum)
    (d : Decimal) :
    ∃ n : Numeral, n.sign = sign ∧ n.body = l.decimal d ∧
      (n.power = none ↔ l.plain.1 ≤ d.order ∧ d.order ≤ l.plain.2) ∧
      (n.significand * 10 ^ n.exponent : ℚ) =
        natOfDigits d.digits * 10 ^ (d.order - d.digits.length + 1) := by
  have digital : Digital d.digits := digital_toDigits _
  have given : d.digits ≠ [] := Nat.toDigits_ne_nil
  unfold Layout.decimal
  simp only
  by_cases plain : l.plain.1 ≤ d.order ∧ d.order ≤ l.plain.2
  · obtain ⟨n, signed, power, body, significand, exponent⟩ :=
      withPoint_spells sign digital given (d.order + 1)
    rw [if_pos plain, unpointed]
    refine ⟨n, signed, body, iff_of_true power plain, ?_⟩
    rw [significand, exponent, Nat.cast_mul, Nat.cast_pow, Nat.cast_ofNat, mul_assoc,
      ← zpow_natCast, ← zpow_add₀ (by norm_num)]
    congr 2
    omega
  · obtain ⟨n, signed, power, body, significand, exponent⟩ :=
      withExponent_spells sign digital given d.order
    rw [if_neg plain]
    exact ⟨n, signed, body, iff_of_false power plain, by rw [significand, exponent]⟩

/-- A finite number other than zero is written as a numeral of its shortest decimal, with a power of
ten only if the order of that is outside of -6 to 20, and the text is read as the number of the
numeral. -/
theorem text_spells (x : Float) (d : Dyadic) (finite : Parts.ofFloat x = .finite d)
    (ne : d.mantissa ≠ 0) :
    let decimal := shortest .up d.mantissa d.exponent
    ∃ n : Numeral, (text x).toList = n.chars ∧
      n.value = (if d.negative then -1 else 1) *
        (natOfDigits decimal.digits * 10 ^ (decimal.order - decimal.digits.length + 1)) ∧
      (n.power = none ↔ -7 < decimal.order ∧ decimal.order < 21) ∧
      (text x).toList.all isDecimalChar = true ∧ ofText (text x) = n.number := by
  intro decimal
  obtain ⟨n, signed, body, plain, value⟩ :=
    scriptLayout.decimal_spells rfl (if d.negative then .minus else .bare) decimal
  have chars : text x = String.ofList n.chars := by
    unfold text Layout.render
    rw [finite, Numeral.chars, signed, body]
    simp only [if_neg ne]
    split <;> rfl
  refine ⟨n, ?_, ?_, ?_, ?_, ?_⟩
  · rw [chars, String.toList_ofList]
  · rw [Numeral.value, value, signed]
    split <;> rfl
  · refine plain.trans ?_
    change -6 ≤ decimal.order ∧ decimal.order ≤ 20 ↔ _
    omega
  · rw [chars, String.toList_ofList]
    exact List.all_eq_true.2 fun c member => n.isDecimalChar member
  · rw [chars, ofText_chars]

/-- The least number that takes a power of ten. -/
theorem text_spells_sextillion :
    Parts.ofFloat 1e21 = .finite ⟨false, 7629394531250000, 17⟩ ∧
      ∃ n : Numeral, (text 1e21).toList = n.chars ∧ n.value = 10 ^ 21 ∧ n.power ≠ none ∧
        ofText (text 1e21) = n.number := by
  have finite : Parts.ofFloat 1e21 = .finite ⟨false, 7629394531250000, 17⟩ := by decide +kernel
  have decimal : shortest .up 7629394531250000 17 = ⟨1, 21⟩ := by decide +kernel
  obtain ⟨n, chars, value, plain, -, read⟩ := text_spells 1e21 _ finite (by decide)
  simp only [decimal] at value plain
  refine ⟨finite, n, chars, ?_, ?_, read⟩
  · have digit : natOfDigits (Decimal.digits ⟨1, 21⟩) = 1 := by decide
    have order : Decimal.order ⟨1, 21⟩ - (Decimal.digits ⟨1, 21⟩).length + 1 = 21 := by decide
    rw [value, digit, order]
    norm_num
  · exact fun none => absurd (plain.1 none).2 (by decide)

end Scriptlet.Number
