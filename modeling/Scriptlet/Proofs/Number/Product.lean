import Scriptlet.Proofs.Number.Whole

/-!
Products of counts and other numbers.

A product is rounded, but never across a power of two. Main statement: `lt_product`, by which a
count times a number is beyond a small power of two as soon as the count times the number's integer
part is.
-/

namespace Scriptlet.Number

open Float.Model (Format UnpackedFloat totalExponent)
open Float.Model.UnpackedFloat

variable {m n l : Nat} {e : Int}

/-! ### Rounding -/

theorem mantissa_shift (m shift : Nat) :
    (ExtendedMantissa.ofMantissaAndAccuracy m .exact >>> shift).mantissa = m / 2 ^ shift := by
  change (Nat.repeat ExtendedMantissa.shiftRightOne shift _).mantissa = _
  induction shift with
  | zero => simp [Nat.repeat, ExtendedMantissa.ofMantissaAndAccuracy]
  | succ shift ih =>
    rw [Nat.repeat, ExtendedMantissa.shiftRightOne, ih, Nat.div_div_eq_div_mul, ← Nat.pow_succ]

/-- Rounding adds one at most. -/
theorem roundedMantissa_cases (em : ExtendedMantissa) :
    em.roundedMantissa = em.mantissa ∨ em.roundedMantissa = em.mantissa + 1 := by
  unfold ExtendedMantissa.roundedMantissa Accuracy.roundToNearestEven
  split
  · exact .inl rfl
  · exact .inl rfl
  · rcases Nat.mod_two_eq_zero_or_one em.mantissa with even | odd
    · exact .inl (by rw [even, Nat.add_zero])
    · exact .inr (by rw [odd])
  · exact .inr rfl

theorem Full.of_div {shift : Nat} (long : m.log2 = 52 + shift) : Full (m / 2 ^ shift) := by
  have ne : m ≠ 0 := by
    rintro rfl
    rw [Nat.log2_zero] at long
    omega
  constructor
  · refine (Nat.le_div_iff_mul_le (Nat.two_pow_pos _)).2 ?_
    rw [← Nat.pow_add, ← long]
    exact Nat.log2_self_le ne
  · refine Nat.div_lt_of_lt_mul ?_
    rw [← Nat.pow_add, show shift + 53 = m.log2 + 1 by omega]
    exact Nat.lt_log2_self

/-- A significand is shifted until as many bits are left as a number can have. -/
theorem shift_target (shift : Nat) (long : m.log2 = 52 + shift) (normal : -1074 ≤ shift + e) :
    shiftToTargetExponent .binary64 m e .exact =
      (ExtendedMantissa.ofMantissaAndAccuracy m .exact >>> shift, shift + e) := by
  have target : Format.binary64.targetExponent (totalExponent m e) = shift + e := by
    simp only [Format.targetExponent, totalExponent, mantissaBits_binary64, Format.minExponent,
      long]
    omega
  have distance : ((shift : Int) + e - e).toNat = shift := by omega
  simp only [shiftToTargetExponent, target, shiftToExponent, distance]
  rw [Int.add_comm]

/-- A long significand is cut to its first bits, which grow by one at most; with it the exponent
may. -/
theorem round_long {shift : Nat} (long : m.log2 = 52 + shift) (normal : -1074 ≤ shift + e)
    (sign : Sign) :
    ∃ m' e', ∃ full : Full m',
      roundWithAccuracy .binary64 sign m e .exact = .finite sign m' e' full.pos ∧
      ((e' = shift + e ∧ m / 2 ^ shift ≤ m') ∨ e' = shift + e + 1) := by
  have cut : Full (m / 2 ^ shift) := Full.of_div long
  have shifted := shift_target shift long normal
  have grown := roundedMantissa_cases (ExtendedMantissa.ofMantissaAndAccuracy m .exact >>> shift)
  rw [mantissa_shift] at grown
  generalize rounded : (ExtendedMantissa.ofMantissaAndAccuracy m .exact >>> shift).roundedMantissa =
    r at grown
  by_cases fits : r < 2 ^ 53
  · -- the exponent stays
    have full : Full r := ⟨by have := cut.lower; omega, fits⟩
    have mantissa := mantissa_shift r 0
    rw [Nat.pow_zero, Nat.div_one] at mantissa
    refine ⟨r, shift + e, full, roundWithAccuracy_eq sign shifted ?_ mantissa full.pos,
      .inl ⟨rfl, by omega⟩⟩
    rw [rounded, shift_target 0 full.log2 (by omega), Int.natCast_zero, Int.zero_add]
  · -- the significand has become the next power of two
    obtain rfl : r = 2 ^ 53 := by
      have := cut.upper
      omega
    have mantissa := mantissa_shift (2 ^ 53) 1
    have full : Full (2 ^ 53 / 2 ^ 1) := ⟨by decide, by decide⟩
    refine ⟨2 ^ 53 / 2 ^ 1, shift + e + 1, full,
      roundWithAccuracy_eq sign shifted ?_ mantissa full.pos, .inr rfl⟩
    rw [rounded, shift_target 1 (by decide) (by omega), Int.natCast_one, Int.add_comm 1]

/-! ### Products -/

/-- A product beyond a small power of two is stored beyond it. -/
theorem lt_round {a b : Nat} (small : l ≤ 52) (long : 52 ≤ m.log2)
    (beyond : (2 ^ l + 1) * 2 ^ a ≤ m * 2 ^ b) (pos : 0 < 2 ^ 52) :
    (UnpackedFloat.finite .positive (2 ^ 52) (l - 52) pos).compare
      (unpack .binary64 (pack .binary64
        (roundWithAccuracy .binary64 .positive m (b - a) .exact))) = some .lt := by
  obtain ⟨shift, long⟩ := Nat.exists_eq_add_of_le long
  have ne : m ≠ 0 := by
    rintro rfl
    cases shift <;> cases long
  -- the exponent of the product is no smaller than that of the power of two
  have above : l + a ≤ 52 + shift + b := by
    have upper : m * 2 ^ b < 2 ^ (52 + shift + 1) * 2 ^ b :=
      Nat.mul_lt_mul_of_pos_right (long ▸ Nat.lt_log2_self) (Nat.two_pow_pos b)
    have lower : 2 ^ l * 2 ^ a ≤ (2 ^ l + 1) * 2 ^ a := Nat.mul_le_mul_right _ (Nat.le_succ _)
    rw [← Nat.pow_add] at upper lower
    have less := (Nat.pow_lt_pow_iff_right (by decide : 1 < 2)).1
      (Nat.lt_of_le_of_lt (Nat.le_trans lower beyond) upper)
    omega
  obtain ⟨m', e', full, rounded, size⟩ := round_long (e := b - a) long (by omega) .positive
  rw [rounded]
  -- where the exponents are the same, the significand is larger
  have larger (same : e' = l - 52) : 2 ^ 52 < m' := by
    obtain ⟨exponent, cut⟩ := size.resolve_right (by omega)
    refine Nat.lt_of_lt_of_le ?_ cut
    refine Nat.lt_of_succ_le ((Nat.le_div_iff_mul_le (Nat.two_pow_pos _)).2 ?_)
    have whole : 2 ^ a = 2 ^ (52 - l) * 2 ^ shift * 2 ^ b := by
      rw [← Nat.pow_add, ← Nat.pow_add]
      congr 1
      omega
    have next : 2 ^ 52 + 1 ≤ (2 ^ l + 1) * 2 ^ (52 - l) := by
      rw [Nat.add_mul, ← Nat.pow_add, Nat.add_sub_cancel' small, Nat.one_mul]
      exact Nat.add_le_add_left (Nat.two_pow_pos _) _
    rw [whole, ← Nat.mul_assoc, ← Nat.mul_assoc] at beyond
    exact Nat.le_trans (Nat.mul_le_mul_right _ next)
      (Nat.le_of_mul_le_mul_right beyond (Nat.two_pow_pos b))
  by_cases stored : e' ≤ 971
  · rw [full.unpack_pack (by omega) stored]
    have order : (compare ((l : Int) - 52) e').then (compare (2 ^ 52) m') = .lt := by
      by_cases same : e' = l - 52
      · rw [same, Int.compare_eq_eq.2 rfl, Ordering.eq_then, Nat.compare_eq_lt]
        exact larger same
      · rw [Int.compare_eq_lt.2 (by omega)]
        rfl
    exact congrArg some order
  · have infinite :
        pack .binary64 (.finite .positive m' e' full.pos) = packedInfinity .binary64 .positive := by
      rw [pack_binary64, if_pos (by omega)]
    rw [infinite]
    rfl

theorem magnitude_mul_le (d : Dyadic) :
    d.magnitude * 2 ^ (-d.exponent).toNat ≤ d.mantissa * 2 ^ d.exponent.toNat := by
  unfold Dyadic.magnitude
  split
  next scaled =>
    have none : (-d.exponent).toNat = 0 := by omega
    rw [none, Nat.pow_zero, Nat.mul_one]
    exact Nat.le_refl _
  next cut =>
    have none : d.exponent.toNat = 0 := by omega
    rw [none, Nat.pow_zero, Nat.mul_one]
    exact Nat.div_mul_le_self ..

/-- A count times a number is beyond a small power of two if the count times the integer part is. -/
theorem lt_product {x : Float} {d : Dyadic} (small : l ≤ 52) (less : n < 2 ^ 53)
    (parts : Parts.ofFloat x = .finite d) (positive : d.negative = false)
    (beyond : 2 ^ l < n * d.magnitude) : Float.ofNat (2 ^ l) < Float.ofNat n * x := by
  have some : n ≠ 0 := by
    rintro rfl
    simp at beyond
  have power : 2 ^ l < 2 ^ 53 := Nat.pow_lt_pow_right (by decide) (by omega)
  have bound : (Float.ofNat (2 ^ l)).toModel.unpack =
      .finite .positive (2 ^ 52) (l - 52) (Nat.two_pow_pos 52) := by
    rw [unpack_ofNat (Nat.ne_of_gt (Nat.two_pow_pos l)) power, countParts,
      UnpackedFloat.finite.injEq, Nat.log2_two_pow, ← Nat.pow_add, Nat.add_sub_cancel' small]
    exact ⟨rfl, rfl, rfl⟩
  have factor : ∃ pos, x.toModel.unpack = .finite .positive d.mantissa d.exponent pos := by
    rw [Parts.ofFloat_eq] at parts
    cases unpacked : x.toModel.unpack with
    | notANumber | infinity =>
      rw [unpacked] at parts
      cases parts
    | zero =>
      rw [unpacked] at parts
      cases parts
      simp [magnitude_zero] at beyond
    | finite sign m e pos =>
      rw [unpacked] at parts
      cases parts
      cases sign with
      | positive => exact ⟨pos, rfl⟩
      | negative => cases positive
  obtain ⟨pos, factor⟩ := factor
  have few := log2_le some less
  have long : 52 ≤ (n * 2 ^ (52 - n.log2) * d.mantissa).log2 := by
    refine (Nat.le_log2 (Nat.mul_ne_zero (Full.shifted some less).ne_zero (Nat.ne_of_gt pos))).2 ?_
    exact Nat.le_trans (Full.shifted some less).lower (Nat.le_mul_of_pos_right _ pos)
  have product : (2 ^ l + 1) * 2 ^ (52 - n.log2 + (-d.exponent).toNat) ≤
      n * 2 ^ (52 - n.log2) * d.mantissa * 2 ^ d.exponent.toNat := by
    calc (2 ^ l + 1) * 2 ^ (52 - n.log2 + (-d.exponent).toNat)
        ≤ n * d.magnitude * 2 ^ (52 - n.log2 + (-d.exponent).toNat) := Nat.mul_le_mul_right _ beyond
      _ = n * 2 ^ (52 - n.log2) * (d.magnitude * 2 ^ (-d.exponent).toNat) := by
        rw [Nat.pow_add]; ac_rfl
      _ ≤ n * 2 ^ (52 - n.log2) * (d.mantissa * 2 ^ d.exponent.toNat) :=
        Nat.mul_le_mul_left _ (magnitude_mul_le d)
      _ = _ := (Nat.mul_assoc ..).symm
  have rounded := lt_round small long product (Nat.two_pow_pos 52)
  have exponent : (d.exponent.toNat : Int) - (52 - n.log2 + (-d.exponent).toNat : Nat) =
      n.log2 - 52 + d.exponent := by omega
  rw [exponent, ← bound] at rounded
  refine decide_eq_true (?_ : UnpackedFloat.lt _ (unpack .binary64 (pack .binary64
    (mul .binary64 (Float.ofNat n).toModel.unpack x.toModel.unpack))) = true)
  rw [unpack_ofNat some less, factor, UnpackedFloat.lt, beq_iff_eq]
  exact rounded

/-- A count that is no part of a product beyond a small power of two stays within it. -/
theorem mul_toCount_le {x : Float} {limit : Nat} (small : l ≤ 52) (less : n < 2 ^ 53)
    (finite : x.isInf = false) (within : ¬Float.ofNat (2 ^ l) < Float.ofNat n * x) :
    n * toCount limit x ≤ 2 ^ l := by
  unfold toCount
  cases parts : Parts.ofFloat x with
  | nan => simp
  | infinite negative =>
    have infinite : x.isInf = true := by
      rw [Parts.ofFloat_eq] at parts
      change x.toModel.unpack.isInf = true
      cases unpacked : x.toModel.unpack with
      | infinity => rfl
      | _ =>
        rw [unpacked] at parts
        cases parts
    rw [finite] at infinite
    cases infinite
  | finite d =>
    cases sign : d.negative with
    | true => simp [sign]
    | false =>
      by_contra beyond
      refine within (lt_product small less parts sign (Nat.lt_of_lt_of_le (Nat.not_le.1 beyond) ?_))
      simp only [sign]
      exact Nat.mul_le_mul_left _ (Nat.min_le_right ..)

end Scriptlet.Number
