import Mathlib.Algebra.Group.Nat.Defs
import Mathlib.Order.Basic
import Scriptlet.Number.Arithmetic

/-!
Counts as numbers.

Every count below `2 ^ 53` is a number, and the number has the count back.
-/

namespace Scriptlet.Number

open Float.Model (Format UnpackedFloat totalExponent)
open Float.Model.UnpackedFloat

/-! ### Fields -/

theorem toNat_unpackMantissa (b : BitVec 64) :
    (@unpackMantissa .binary64 b).toNat = b.toNat % Nat.pow 2 52 := by
  simp [unpackMantissa]

theorem toNat_unpackExponent (b : BitVec 64) :
    (@unpackExponent .binary64 b).toNat = b.toNat / Nat.pow 2 52 % Nat.pow 2 11 := by
  simp [unpackExponent, Nat.shiftRight_eq_div_pow]

theorem toNat_unpackSign (b : BitVec 64) :
    (@unpackSign .binary64 b).toNat = b.toNat / Nat.pow 2 63 % 2 := by
  change (b.extractLsb (52 + 11) (52 + 11)).toNat = _
  simp [Nat.shiftRight_eq_div_pow]

theorem toNat_hidden (fraction : BitVec 52) :
    (1#1 ++ fraction).toNat = fraction.toNat + hiddenBit := by
  rw [BitVec.toNat_append, ← Nat.shiftLeft_add_eq_or_of_lt fraction.isLt, Nat.add_comm]
  rfl

theorem hidden_pos (fraction : BitVec 52) : 0 < (1#1 ++ fraction).toNat := by
  rw [toNat_hidden]
  exact Nat.add_pos_right _ (by decide)

theorem ofBitVec_eq_negative (b : BitVec 1) : (Sign.ofBitVec b == .negative) = (b.toNat == 1) := by
  revert b
  decide

theorem mantissaBits_binary64 : Format.binary64.mantissaBits = 53 := rfl

/-- The word of 64 bits for a number, whose first bit is left out if its exponent is in range. -/
theorem pack_binary64 (sign : Sign) (m : Nat) (e : Int) (pos : 0 < m) :
    pack .binary64 (.finite sign m e pos) =
      if 2 ^ 11 ≤ (e + (1023 : Nat) + (52 : Nat)).toNat + 1 then packedInfinity .binary64 sign
      else if m.log2 + 1 = 53 then
        packComponents .binary64 sign (BitVec.ofNat 11 (e + (1023 : Nat) + (52 : Nat)).toNat)
          (BitVec.ofNat 52 m)
      else packComponents .binary64 sign 0#11 (BitVec.ofNat 52 m) :=
  rfl

/-- The number in a word of 64 bits. -/
theorem unpack_binary64 (b : BitVec Format.binary64.numBits) : unpack .binary64 b =
    if unpackExponent b = -1#11 then
      if unpackMantissa b = 0#52 then .infinity (.ofBitVec (unpackSign b)) else .notANumber
    else if unpackExponent b = 0#11 then
      if h : unpackMantissa b = 0#52 then .zero (.ofBitVec (unpackSign b))
      else
        .finite (.ofBitVec (unpackSign b)) (unpackMantissa b).toNat
          ((unpackExponent b).toNat - ((1023 : Nat) + (52 : Nat)) + 1)
          (by simpa [BitVec.toNat_pos, BitVec.pos_iff_ne_zero])
    else
      .finite (.ofBitVec (unpackSign b)) (1#1 ++ unpackMantissa b).toNat
        ((unpackExponent b).toNat - ((1023 : Nat) + (52 : Nat))) (hidden_pos _) :=
  rfl

section Stored

variable (sign : Sign) (exponent : BitVec 11) (mantissa : BitVec 52)

theorem toNat_packComponents : (packComponents .binary64 sign exponent mantissa).toNat =
    sign.toBitVec.toNat * 2 ^ 63 + exponent.toNat * 2 ^ 52 + mantissa.toNat := by
  rw [packComponents, BitVec.toNat_append, BitVec.toNat_append,
    ← Nat.shiftLeft_add_eq_or_of_lt mantissa.isLt, ← Nat.shiftLeft_add_eq_or_of_lt exponent.isLt,
    Nat.shiftLeft_eq, Nat.shiftLeft_eq]
  omega

theorem unpackMantissa_packComponents :
    unpackMantissa (packComponents .binary64 sign exponent mantissa) = mantissa := by
  apply BitVec.eq_of_toNat_eq
  have small := mantissa.isLt
  rw [toNat_unpackMantissa, toNat_packComponents]
  change _ % 2 ^ 52 = _
  omega

theorem unpackExponent_packComponents :
    unpackExponent (packComponents .binary64 sign exponent mantissa) = exponent := by
  apply BitVec.eq_of_toNat_eq
  have small := mantissa.isLt
  have few := exponent.isLt
  rw [toNat_unpackExponent, toNat_packComponents]
  change _ / 2 ^ 52 % 2 ^ 11 = _
  omega

theorem unpackSign_packComponents :
    unpackSign (packComponents .binary64 sign exponent mantissa) = sign.toBitVec := by
  apply BitVec.eq_of_toNat_eq
  have small := mantissa.isLt
  have few := exponent.isLt
  have bit := sign.toBitVec.isLt
  rw [toNat_unpackSign, toNat_packComponents]
  change _ / 2 ^ 63 % 2 = _
  omega

theorem ofBitVec_toBitVec : Sign.ofBitVec sign.toBitVec = sign := by
  cases sign <;> rfl

end Stored

/-! ### Numbers of 53 bits -/

theorem log2_le {n : Nat} (ne : n ≠ 0) (less : n < 2 ^ 53) : n.log2 ≤ 52 :=
  Nat.le_of_lt_succ ((Nat.log2_lt ne).2 less)

/-- Rounding shifts once more, because the significand may have got another bit. -/
theorem roundWithAccuracy_eq {m m' : Nat} {e e' e'' : Int} {cut whole : ExtendedMantissa}
    (sign : Sign) (shifted : shiftToTargetExponent .binary64 m e .exact = (cut, e'))
    (again : shiftToTargetExponent .binary64 cut.roundedMantissa e' .exact = (whole, e''))
    (mantissa : whole.mantissa = m') (pos : 0 < m') :
    roundWithAccuracy .binary64 sign m e .exact = .finite sign m' e'' pos := by
  subst mantissa
  rw [roundWithAccuracy, shifted]
  dsimp only
  rw [again]
  exact dif_neg (Nat.ne_of_gt pos)

/-- A significand with its first bit set. -/
structure Full (m : Nat) : Prop where
  lower : 2 ^ 52 ≤ m
  upper : m < 2 ^ 53

namespace Full

variable {m : Nat} {e : Int}

theorem pos (full : Full m) : 0 < m :=
  Nat.lt_of_lt_of_le (Nat.two_pow_pos 52) full.lower

theorem ne_zero (full : Full m) : m ≠ 0 :=
  Nat.ne_of_gt full.pos

theorem log2_shift (full : Full m) (shift : Nat) : (m * 2 ^ shift).log2 = 52 + shift := by
  have ne := Nat.mul_ne_zero full.ne_zero (Nat.ne_of_gt (Nat.two_pow_pos shift))
  refine (Nat.log2_eq_iff ne).2 ⟨?_, ?_⟩
  · rw [Nat.pow_add]
    exact Nat.mul_le_mul_right _ full.lower
  · rw [Nat.add_right_comm, Nat.pow_add]
    exact Nat.mul_lt_mul_of_pos_right full.upper (Nat.two_pow_pos shift)

theorem log2 (full : Full m) : m.log2 = 52 := by
  simpa using full.log2_shift 0

/-- Any count is a significand after a shift. -/
theorem shifted {n : Nat} (ne : n ≠ 0) (less : n < 2 ^ 53) : Full (n * 2 ^ (52 - n.log2)) := by
  have few := log2_le ne less
  constructor
  · calc 2 ^ 52 = 2 ^ n.log2 * 2 ^ (52 - n.log2) := by rw [← Nat.pow_add, Nat.add_sub_cancel' few]
      _ ≤ _ := Nat.mul_le_mul_right _ (Nat.log2_self_le ne)
  · calc n * 2 ^ (52 - n.log2) < 2 ^ (n.log2 + 1) * 2 ^ (52 - n.log2) :=
          Nat.mul_lt_mul_of_pos_right Nat.lt_log2_self (Nat.two_pow_pos _)
      _ = 2 ^ 53 := by rw [← Nat.pow_add]; congr 1; omega

/-! ### Rounding -/

theorem shift_exact (m shift : Nat) :
    ExtendedMantissa.ofMantissaAndAccuracy (m * 2 ^ shift) .exact >>> shift =
      ExtendedMantissa.ofMantissaAndAccuracy m .exact := by
  change Nat.repeat ExtendedMantissa.shiftRightOne shift _ = _
  induction shift generalizing m with
  | zero => rw [Nat.pow_zero, Nat.mul_one]; rfl
  | succ shift ih =>
    have double : m * 2 ^ (shift + 1) = m * 2 * 2 ^ shift := by
      rw [Nat.pow_succ, Nat.mul_comm (2 ^ shift), Nat.mul_assoc]
    rw [Nat.repeat, double, ih]
    simp [ExtendedMantissa.shiftRightOne, ExtendedMantissa.ofMantissaAndAccuracy]

/-- Rounding drops zeros only. -/
theorem round_shift (full : Full m) (normal : -1074 ≤ e) (sign : Sign) (shift : Nat) :
    roundWithAccuracy .binary64 sign (m * 2 ^ shift) (e - shift) .exact =
      .finite sign m e full.pos := by
  have target (shift : Nat) :
      Format.binary64.targetExponent (totalExponent (m * 2 ^ shift) (e - shift)) = e := by
    simp only [Format.targetExponent, totalExponent, full.log2_shift,
      mantissaBits_binary64, Format.minExponent]
    omega
  have shifted (shift : Nat) : shiftToTargetExponent .binary64 (m * 2 ^ shift) (e - shift) .exact =
      (ExtendedMantissa.ofMantissaAndAccuracy m .exact, e) := by
    have distance : (e - (e - shift)).toNat = shift := by omega
    simp only [shiftToTargetExponent, target, shiftToExponent, distance, shift_exact,
      Int.sub_add_cancel]
  have again := shifted 0
  rw [Nat.pow_zero, Nat.mul_one, Int.natCast_zero, Int.sub_zero] at again
  have rounded : (ExtendedMantissa.ofMantissaAndAccuracy m .exact).roundedMantissa = m := by
    simp [ExtendedMantissa.ofMantissaAndAccuracy, ExtendedMantissa.roundedMantissa,
      ExtendedMantissa.accuracy, Accuracy.roundToNearestEven]
  exact roundWithAccuracy_eq sign (shifted shift) (rounded.symm ▸ again) rfl full.pos

/-! ### Storing -/

theorem toNat_significand (full : Full m) : (1#1 ++ BitVec.ofNat 52 m).toNat = m := by
  have lower := full.lower
  have upper := full.upper
  rw [toNat_hidden, BitVec.toNat_ofNat]
  change m % 2 ^ 52 + 2 ^ 52 = m
  omega

theorem unpack_pack (full : Full m) (normal : -1074 ≤ e) (small : e ≤ 971) (sign : Sign) :
    unpack .binary64 (pack .binary64 (.finite sign m e full.pos)) =
      .finite sign m e full.pos := by
  obtain ⟨biased, eq⟩ : ∃ biased, (e + (1023 : Nat) + (52 : Nat)).toNat = biased := ⟨_, rfl⟩
  have stored : (BitVec.ofNat 11 biased).toNat = biased := by
    rw [BitVec.toNat_ofNat]
    omega
  have finite : BitVec.ofNat 11 biased ≠ -1#11 := by
    intro same
    have ones : biased = 2047 := stored.symm.trans (congrArg BitVec.toNat same)
    omega
  have nonzero : BitVec.ofNat 11 biased ≠ 0#11 := by
    intro same
    have zeros : biased = 0 := stored.symm.trans (congrArg BitVec.toNat same)
    omega
  rw [pack_binary64, eq, if_neg (by omega), if_pos (congrArg (· + 1) full.log2), unpack_binary64,
    unpackExponent_packComponents, if_neg finite, if_neg nonzero, UnpackedFloat.finite.injEq,
    unpackSign_packComponents, unpackMantissa_packComponents, stored]
  exact ⟨ofBitVec_toBitVec sign, full.toNat_significand, by omega⟩

end Full

/-! ### Counts -/

variable {n : Nat}

/-- The significand of a count and the power of two beside it. -/
def countParts (n : Nat) (ne : n ≠ 0) (less : n < 2 ^ 53) : UnpackedFloat :=
  .finite .positive (n * 2 ^ (52 - n.log2)) (n.log2 - 52) (Full.shifted ne less).pos

theorem round_count (ne : n ≠ 0) (less : n < 2 ^ 53) :
    UnpackedFloat.round .binary64 .positive n 0 = countParts n ne less := by
  have few := log2_le ne less
  have target : Format.binary64.targetExponent (totalExponent n 0) = n.log2 - 52 := by
    simp only [Format.targetExponent, totalExponent, mantissaBits_binary64,
      Format.minExponent]
    omega
  have distance : (0 - ((n.log2 : Int) - 52)).toNat = 52 - n.log2 := by omega
  have exponent : (0 : Int) - (52 - n.log2 : Nat) = n.log2 - 52 := by omega
  have exact := (Full.shifted ne less).round_shift (e := n.log2 - 52) (by omega) .positive 0
  rw [Nat.pow_zero, Nat.mul_one, Int.natCast_zero, Int.sub_zero] at exact
  simp only [UnpackedFloat.round, target, decreaseExponent, distance, exponent, Nat.shiftLeft_eq]
  exact exact

theorem unpack_pack_countParts (ne : n ≠ 0) (less : n < 2 ^ 53) :
    unpack .binary64 (pack .binary64 (countParts n ne less)) = countParts n ne less := by
  have few := log2_le ne less
  exact (Full.shifted ne less).unpack_pack (by omega) (by omega) .positive

theorem unpack_ofUInt64 (ne : n ≠ 0) (less : n < 2 ^ 53) :
    n.toUInt64.toFloat.toModel.unpack = countParts n ne less := by
  have word : n.toUInt64.toNat = n := UInt64.toNat_ofNat_of_lt (Nat.lt_trans less (by decide))
  have positive : compare (n : Int) 0 = .gt := Int.compare_eq_gt.2 (by omega)
  change unpack .binary64 (pack .binary64 (ofUInt64 .binary64 n.toUInt64)) = _
  simp only [ofUInt64, ofNat, ofInt, UnpackedFloat.normalize, word, positive, Int.toNat_natCast]
  rw [round_count ne less, unpack_pack_countParts ne less]

theorem unpack_ofNat (ne : n ≠ 0) (less : n < 2 ^ 53) :
    (Float.ofNat n).toModel.unpack = countParts n ne less := by
  -- a small count is converted as a word and multiplied with the power of ten, which is one
  have product : Float.ofNat n = n.toUInt64.toFloat * Float.ofBits 4607182418800017408 :=
    dif_pos ⟨less, by decide⟩
  have one : (Float.ofBits 4607182418800017408).toModel.unpack =
      .finite .positive (2 ^ 52) (-52) (by decide) :=
    rfl
  have same : mul .binary64 (countParts n ne less) (.finite .positive (2 ^ 52) (-52) (by decide)) =
      countParts n ne less :=
    (Full.shifted ne less).round_shift (by omega) .positive 52
  rw [product]
  change unpack .binary64 (pack .binary64 (mul .binary64 _ _)) = _
  rw [unpack_ofUInt64 ne less, one, same, unpack_pack_countParts ne less]

/-! ### Reading -/

/-- The parts of a stored number. -/
def Parts.ofUnpacked : UnpackedFloat → Parts
  | .notANumber => .nan
  | .infinity sign => .infinite (sign == .negative)
  | .zero sign => .finite ⟨sign == .negative, 0, minExponent⟩
  | .finite sign m e _ => .finite ⟨sign == .negative, m, e⟩

theorem Parts.ofFloat_eq (x : Float) : ofFloat x = ofUnpacked x.toModel.unpack := by
  change ofBits x.toModel.toBits.toBitVec.toNat =
    ofUnpacked (unpack .binary64 x.toModel.toBits.toBitVec)
  generalize x.toModel.toBits.toBitVec = b
  rw [ofBits, ← toNat_unpackMantissa, ← toNat_unpackExponent, ← toNat_unpackSign,
    ← ofBitVec_eq_negative]
  have ones (e : BitVec 11) : e.toNat = 2047 ↔ e = -1#11 := BitVec.toNat_inj (y := -1#11)
  have zeros (e : BitVec 11) : e.toNat = 0 ↔ e = 0#11 := BitVec.toNat_inj (y := 0#11)
  have empty (m : BitVec 52) : m.toNat = 0 ↔ m = 0#52 := BitVec.toNat_inj (y := 0#52)
  simp only [ones, zeros, empty]
  rw [unpack_binary64]
  by_cases last : @unpackExponent .binary64 b = -1#11
  · rw [if_pos last, if_pos last]
    by_cases none : @unpackMantissa .binary64 b = 0#52
    · rw [if_pos none, if_pos none]
      rfl
    · rw [if_neg none, if_neg none]
      rfl
  · rw [if_neg last, if_neg last]
    by_cases subnormal : @unpackExponent .binary64 b = 0#11
    · rw [if_pos subnormal, if_pos subnormal]
      by_cases none : @unpackMantissa .binary64 b = 0#52
      · rw [dif_pos none, none]
        rfl
      · rw [dif_neg none, subnormal]
        rfl
    · rw [if_neg subnormal, if_neg subnormal, ← toNat_hidden]
      rfl

theorem magnitude_zero {d : Dyadic} (zero : d.mantissa = 0) : d.magnitude = 0 := by
  rw [Dyadic.magnitude, zero, Nat.zero_mul, Nat.zero_div, ite_self]

theorem ofFloat_ofNat (less : n < 2 ^ 53) :
    ∃ d, Parts.ofFloat (Float.ofNat n) = .finite d ∧ d.negative = false ∧ d.magnitude = n := by
  by_cases zero : n = 0
  · subst zero
    have none : Parts.ofFloat (Float.ofNat 0) = .finite ⟨false, 0, minExponent⟩ := by decide
    exact ⟨_, none, rfl, magnitude_zero rfl⟩
  · have few := log2_le zero less
    rw [Parts.ofFloat_eq, unpack_ofNat zero less]
    refine ⟨_, rfl, rfl, ?_⟩
    have shift : (-((n.log2 : Int) - 52)).toNat = 52 - n.log2 := by omega
    rw [Dyadic.magnitude]
    split
    next unshifted =>
      have all : n.log2 = 52 := by
        change 0 ≤ (n.log2 : Int) - 52 at unshifted
        omega
      simp [all]
    next => exact shift ▸ Nat.mul_div_left n (Nat.two_pow_pos _)

theorem toUint32_ofNat (less : n < 2 ^ 32) : toUint32 (Float.ofNat n) = n := by
  obtain ⟨d, eq, positive, magnitude⟩ := ofFloat_ofNat (Nat.lt_trans less (by decide))
  rw [toUint32, eq]
  simp only [Dyadic.truncate, positive, magnitude]
  exact Nat.mod_eq_of_lt less

end Scriptlet.Number
