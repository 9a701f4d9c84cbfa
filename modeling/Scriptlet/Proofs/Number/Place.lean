import Scriptlet.Proofs.Number.Whole

/-!
Places in texts and arrays as numbers.

A place is a count, and minus one stands for none. Numbers tell the two apart whatever the count is,
and below `2 ^ 53` they tell the counts apart as well.
-/

namespace Scriptlet.Number

open Float.Model (Format UnpackedFloat)
open Float.Model.UnpackedFloat

variable {m n : Nat}

/-! ### Signs -/

/-- A number that does not have a negative sign. -/
def NonNegative : UnpackedFloat → Prop
  | .notANumber => True
  | .infinity sign | .zero sign | .finite sign _ _ _ => sign = .positive

theorem nonNegative_dite {c : Prop} [Decidable c] {u : c → UnpackedFloat} {v : ¬c → UnpackedFloat}
    (yes : ∀ h, NonNegative (u h)) (no : ∀ h, NonNegative (v h)) : NonNegative (dite c u v) := by
  by_cases h : c
  · rw [dif_pos h]
    exact yes h
  · rw [dif_neg h]
    exact no h

theorem nonNegative_of_sign {b : BitVec 64} (positive : @unpackSign .binary64 b = 0#1) :
    NonNegative (unpack .binary64 b) := by
  have sign : Sign.ofBitVec (@unpackSign .binary64 b) = .positive := by rw [positive]; rfl
  rw [unpack_binary64]
  refine iteInduction (fun _ => ?_) fun _ => iteInduction (fun _ => ?_) fun _ => ?_
  · exact iteInduction (fun _ => sign) fun _ => trivial
  · exact nonNegative_dite (fun _ => sign) fun _ => sign
  · exact sign

theorem nonNegative_unpack_pack {u : UnpackedFloat} (positive : NonNegative u) :
    NonNegative (unpack .binary64 (pack .binary64 u)) := by
  apply nonNegative_of_sign
  cases u with
  | notANumber => exact unpackSign_packComponents ..
  | infinity sign | zero sign =>
    cases positive
    exact unpackSign_packComponents ..
  | finite sign m e pos =>
    cases positive
    rw [pack_binary64]
    split
    · exact unpackSign_packComponents ..
    · split <;> exact unpackSign_packComponents ..

theorem nonNegative_round (m : Nat) (e : Int) (accuracy : Accuracy) :
    NonNegative (roundWithAccuracy .binary64 .positive m e accuracy) := by
  rw [roundWithAccuracy]
  exact nonNegative_dite (fun _ => rfl) fun _ => rfl

theorem nonNegative_mul (m m' : Nat) (e e' : Int) (pos : 0 < m) (pos' : 0 < m') :
    NonNegative (mul .binary64 (.finite .positive m e pos) (.finite .positive m' e' pos')) :=
  nonNegative_round (m * m') (e + e') .exact

/-- A large count is converted by a product of positive numbers. -/
theorem nonNegative_ofScientific (ne : n ≠ 0) : NonNegative (ofScientific .binary64 n 0) := by
  have few : ¬(0 : Int) < -((2 : Int) ^ Format.binary64.exponentBits + n.log2) := by
    have : (0 : Int) ≤ (2 : Int) ^ Format.binary64.exponentBits + n.log2 :=
      Int.add_nonneg (Int.pow_nonneg (by decide)) (Int.natCast_nonneg _)
    omega
  have many : ¬(0 : Int) > (2 : Int) ^ Format.binary64.exponentBits := by
    have : (0 : Int) ≤ (2 : Int) ^ Format.binary64.exponentBits := Int.pow_nonneg (by decide)
    omega
  rw [ofScientific, dif_neg ne, if_neg many, if_neg few, if_pos (Int.le_refl 0)]
  exact nonNegative_mul ..

theorem nonNegative_ofNat (n : Nat) : NonNegative (Float.ofNat n).toModel.unpack := by
  by_cases small : n < 2 ^ 53
  · by_cases zero : n = 0
    · subst zero
      exact (rfl : Sign.positive = .positive)
    · rw [unpack_ofNat zero small]
      rfl
  · have converted : Float.ofNat n = Float.ofModel (Float.Model.ofScientific n (Int.ofNat 0)) :=
      dif_neg fun both => small both.1
    rw [converted]
    change NonNegative (unpack .binary64 (pack .binary64 (ofScientific .binary64 n 0)))
    exact nonNegative_unpack_pack (nonNegative_ofScientific (by omega))

/-- A count is not minus one. -/
theorem ofNat_beq_minusOne (n : Nat) : (Float.ofNat n == -1.0) = false := by
  have minus : ∃ m e pos, (-1.0 : Float).toModel.unpack = .finite .negative m e pos :=
    ⟨_, _, _, rfl⟩
  obtain ⟨m, e, pos, minus⟩ := minus
  have positive := nonNegative_ofNat n
  change ((Float.ofNat n).toModel.unpack.compare (-1.0 : Float).toModel.unpack == some .eq) = false
  rw [minus]
  generalize (Float.ofNat n).toModel.unpack = u at positive
  cases u with
  | notANumber => rfl
  | infinity sign | zero sign | finite sign =>
    cases positive
    rfl

/-! ### Counts below `2 ^ 53` -/

theorem isInteger_ofNat (less : n < 2 ^ 53) :
    ∃ d, Parts.ofFloat (Float.ofNat n) = .finite d ∧ d.isInteger = true := by
  by_cases zero : n = 0
  · subst zero
    exact ⟨⟨false, 0, minExponent⟩, by decide, by simp [Dyadic.isInteger]⟩
  · have few := log2_le zero less
    rw [Parts.ofFloat_eq, unpack_ofNat zero less]
    refine ⟨_, rfl, ?_⟩
    have shift : (-((n.log2 : Int) - 52)).toNat = 52 - n.log2 := by omega
    change (decide (0 ≤ (n.log2 : Int) - 52) ||
      n * 2 ^ (52 - n.log2) % Nat.pow 2 (-((n.log2 : Int) - 52)).toNat == 0) = true
    rw [shift]
    simp

theorem isNaN_ofNat (less : n < 2 ^ 53) : (Float.ofNat n).isNaN = false := by
  by_cases zero : n = 0
  · subst zero
    rfl
  · change (Float.ofNat n).toModel.unpack.isNaN = false
    rw [unpack_ofNat zero less]
    rfl

theorem toInteger_ofNat (less : n < 2 ^ 53) : toInteger (Float.ofNat n) = Float.ofNat n := by
  obtain ⟨d, parts, whole⟩ := isInteger_ofNat less
  simp only [toInteger, isNaN_ofNat less, trunc, parts, whole, if_true]
  rfl

theorem toCount_ofNat (less : n < 2 ^ 53) (limit : Nat) :
    toCount limit (Float.ofNat n) = min limit n := by
  obtain ⟨d, parts, positive, magnitude⟩ := ofFloat_ofNat less
  simp only [toCount, parts, positive, magnitude]
  rfl

theorem countParts_inj (ne : m ≠ 0) (ne' : n ≠ 0) (less : m < 2 ^ 53) (less' : n < 2 ^ 53)
    (same : (countParts m ne less).compare (countParts n ne' less') = some .eq) : m = n := by
  have both : (compare ((m.log2 : Int) - 52) (n.log2 - 52)).then
      (compare (m * 2 ^ (52 - m.log2)) (n * 2 ^ (52 - n.log2))) = .eq :=
    Option.some.inj same
  obtain ⟨exponents, significands⟩ := Ordering.then_eq_eq.1 both
  have log : m.log2 = n.log2 := by
    have := Int.compare_eq_eq.1 exponents
    omega
  rw [log] at significands
  exact Nat.eq_of_mul_eq_mul_right (Nat.two_pow_pos _) (Nat.compare_eq_eq.1 significands)

/-- Counts that are equal as numbers are equal. -/
theorem ofNat_beq_iff (less : m < 2 ^ 53) (less' : n < 2 ^ 53) :
    (Float.ofNat m == Float.ofNat n) = true ↔ m = n := by
  change ((Float.ofNat m).toModel.unpack.compare (Float.ofNat n).toModel.unpack == some .eq) =
    true ↔ _
  rw [beq_iff_eq]
  have none : (Float.ofNat 0).toModel.unpack = .zero .positive := rfl
  constructor
  · intro same
    by_cases zero : m = 0
    · subst zero
      by_contra ne
      rw [none, unpack_ofNat (Ne.symm ne) less'] at same
      cases same
    · by_cases zero' : n = 0
      · subst zero'
        rw [none, unpack_ofNat zero less] at same
        cases same
      · rw [unpack_ofNat zero less, unpack_ofNat zero' less'] at same
        exact countParts_inj zero zero' less less' same
  · rintro rfl
    by_cases zero : m = 0
    · subst zero
      rfl
    · rw [unpack_ofNat zero less]
      have order : (compare ((m.log2 : Int) - 52) (m.log2 - 52)).then
          (compare (m * 2 ^ (52 - m.log2)) (m * 2 ^ (52 - m.log2))) = .eq :=
        Ordering.then_eq_eq.2 ⟨Int.compare_eq_eq.2 rfl, Nat.compare_eq_eq.2 rfl⟩
      exact congrArg some order

end Scriptlet.Number
