import Mathlib.Data.List.Infix
import Mathlib.Tactic.FinCases
import Scriptlet.Proofs.Number.Numeral
import Scriptlet.Proofs.Number.Whole

/-!
The integer at the start of a text.

The base is that of a mark, or the one that is asked for, and the digits are those in front of the
first character that is none in the base. Main statement: `parseInt_digits`.
-/

namespace Scriptlet.Number

/-- The integer part of a number; zero for those that have none. -/
def integerPart (x : Float) : Int :=
  match Parts.ofFloat x with
  | .finite d => d.truncate
  | _ => 0

/-- Whether a mark of base sixteen counts. -/
def MarkCounts (k : Int) : Prop :=
  k ≤ 0 ∨ k = 16

/-- The base of a text without its sign, and the characters that its digits are among. A mark of
base sixteen is taken where it counts and is there; without it, the base is ten unless one is asked
for. -/
inductive Based (k : Int) : List Char → Nat → List Char → Prop where
  | marked {x : Char} {behind : List Char} : MarkCounts k → (x = 'x' ∨ x = 'X') →
      Based k ('0' :: x :: behind) 16 behind
  | unmarked {cs : List Char} :
      (MarkCounts k → ∀ x ∈ ['x', 'X'], ¬['0', x] <+: cs) →
      Based k cs (if k ≤ 0 then 10 else k.toNat) cs

/-- The characters up to the first one that is no digit in a base. -/
def digitsIn (base : Nat) (cs : List Char) : List Char :=
  cs.takeWhile fun c => (digitIn? base c).isSome

/-- The value of digits in a base, gathered digit by digit. -/
def valueIn (base : Nat) (ds : List Char) : Float :=
  ds.foldl (fun acc c => acc * Float.ofNat base + Float.ofNat ((digitValue? c).getD 0)) 0.0

variable {base : Nat} {ds cs : List Char} {k : Int}

/-! ### Digits -/

theorem foldlM_digits (digits : ∀ c ∈ ds, (digitIn? base c).isSome = true) (acc : Float) :
    ds.foldlM
      (fun acc c => (digitIn? base c).map fun d => acc * Float.ofNat base + Float.ofNat d) acc =
      some
        (ds.foldl
          (fun acc c => acc * Float.ofNat base + Float.ofNat ((digitValue? c).getD 0)) acc) := by
  induction ds generalizing acc with
  | nil => rfl
  | cons c ds ih =>
    obtain ⟨d, digit⟩ := Option.isSome_iff_exists.1 (digits c List.mem_cons_self)
    have value : digitValue? c = some d := (Option.filter_eq_some_iff.1 digit).1
    rw [List.foldlM_cons, digit, List.foldl_cons, value]
    exact ih (fun c member => digits c (List.mem_cons_of_mem _ member)) _

theorem readRadix?_digitsIn (base : Nat) (cs : List Char) :
    readRadix? base (digitsIn base cs) =
      if digitsIn base cs = [] then none else some (valueIn base (digitsIn base cs)) := by
  have digits : ∀ c ∈ digitsIn base cs, (digitIn? base c).isSome = true :=
    List.all_eq_true.1 List.all_takeWhile
  rw [readRadix?, foldlM_digits digits]
  simp only [List.isEmpty_iff]
  rfl

/-! ### The base -/

theorem isFinite_eq (x : Float) : x.isFinite = true ↔ ∃ d, Parts.ofFloat x = .finite d := by
  change x.toModel.unpack.isFinite = true ↔ _
  rw [Parts.ofFloat_eq]
  cases x.toModel.unpack with
  | notANumber | infinity =>
    refine iff_of_false Bool.false_ne_true ?_
    rintro ⟨d, parts⟩
    cases parts
  | zero | finite => exact iff_of_true rfl ⟨_, rfl⟩

/-- A negative base that is asked for counts as none. -/
theorem asked_eq (limit : Nat) (x : Float) :
    (if x.isFinite then toCount limit x else 0) = min limit (integerPart x).toNat := by
  by_cases finite : x.isFinite = true
  · obtain ⟨d, parts⟩ := (isFinite_eq x).1 finite
    rw [if_pos finite, toCount, integerPart, parts]
    simp only [Dyadic.truncate]
    split
    · rw [Int.toNat_neg_natCast, Nat.min_zero]
    · rw [Int.toNat_natCast]
  · have none : integerPart x = 0 := by
      unfold integerPart
      split
      next d parts => exact absurd ((isFinite_eq x).2 ⟨d, parts⟩) finite
      next => rfl
    rw [if_neg finite, none]
    exact (Nat.min_zero limit).symm

/-- The base that a text is read in, and the characters behind its mark. -/
def baseOf (asked : Nat) (cs : List Char) : Nat × List Char :=
  match (if asked = 0 ∨ asked = 16 then takeHexMark? cs else none) with
  | some rest => (16, rest)
  | none => (if asked = 0 then 10 else asked, cs)

theorem markCounts_iff : MarkCounts k ↔ k.toNat = 0 ∨ k.toNat = 16 := by
  unfold MarkCounts
  omega

theorem based_baseOf (k : Int) (cs : List Char) :
    Based k cs (baseOf k.toNat cs).1 (baseOf k.toNat cs).2 := by
  have ten : (if k.toNat = 0 then 10 else k.toNat) = if k ≤ 0 then 10 else k.toNat := by
    simp only [Int.toNat_eq_zero]
  unfold baseOf
  by_cases counts : MarkCounts k
  · rw [if_pos (markCounts_iff.1 counts)]
    unfold takeHexMark?
    split
    next rest taken =>
      split at taken
      · cases taken
        exact .marked counts (.inl rfl)
      · cases taken
        exact .marked counts (.inr rfl)
      · cases taken
    next taken =>
      rw [ten]
      refine .unmarked fun _ x hex start => ?_
      obtain ⟨rest, rfl⟩ := start
      fin_cases hex <;> cases taken
  · rw [if_neg (mt markCounts_iff.2 counts), ten]
    exact .unmarked fun other => absurd other counts

theorem baseOf_of_refused {asked : Nat} (cs : List Char) (refused : asked = 1 ∨ 36 < asked) :
    (baseOf asked cs).1 = asked := by
  rw [baseOf, if_neg (by omega)]
  exact if_neg (by omega)

theorem Based.fits {behind : List Char} (based : Based k cs base behind)
    (fits : k ≤ 0 ∨ 2 ≤ k ∧ k ≤ 36) :
    2 ≤ base ∧ base ≤ 36 := by
  cases based with
  | marked => decide
  | unmarked =>
    split
    · decide
    · omega

/-- The number that a text stands for whose base and digits were found. -/
def signedIn (sign : Signum) (base : Nat) (behind : List Char) : Float :=
  if base < 2 ∨ 36 < base ∨ digitsIn base behind = [] then nan
  else sign.apply (valueIn base (digitsIn base behind))

theorem signedIn_eq (sign : Signum) (base : Nat) (behind : List Char) :
    signedIn sign base behind =
      if base < 2 ∨ 36 < base then nan
      else
        match readRadix? base (digitsIn base behind) with
        | some value => sign.apply value
        | none => nan := by
  rw [readRadix?_digitsIn, signedIn]
  by_cases refused : base < 2 ∨ 36 < base
  · rw [if_pos refused, if_pos (by tauto)]
  · rw [if_neg refused]
    by_cases given : digitsIn base behind = []
    · rw [if_pos given, if_pos (.inr (.inr given))]
    · rw [if_neg given, if_neg (by tauto)]

theorem parseInt_eq {s : String} {sign : Signum} {asked : Nat} (radix : Float)
    (taken : takeSign (Text.dropBlanks s.toList) = (sign.negative, cs))
    (limited : min 4294967295 (integerPart radix).toNat = asked) :
    parseInt s radix = signedIn sign (baseOf asked cs).1 (baseOf asked cs).2 := by
  subst limited
  rw [signedIn_eq]
  simp only [parseInt, taken, asked_eq]
  rfl

/-- A text is read as the digits at its start, in the base that the integer part of a radix asks
for, blanks and a sign in front of them left out. A radix below two or above 36 gives NaN, but a
negative one counts as none. -/
theorem parseInt_digits (s : String) (radix : Float) :
    (integerPart radix = 1 ∨ 36 < integerPart radix) ∧ parseInt s radix = nan ∨
      (integerPart radix ≤ 0 ∨ 2 ≤ integerPart radix ∧ integerPart radix ≤ 36) ∧
        ∃ (sign : Signum) (cs : List Char) (base : Nat) (behind : List Char),
          Text.dropBlanks s.toList = sign.chars ++ cs ∧ (sign = .bare → Unsigned cs) ∧
            Based (integerPart radix) cs base behind ∧ parseInt s radix =
              if digitsIn base behind = [] then nan
                else sign.apply (valueIn base (digitsIn base behind)) := by
  obtain ⟨sign, cs, text, taken, apart⟩ := exists_takeSign (Text.dropBlanks s.toList)
  by_cases refused : integerPart radix = 1 ∨ 36 < integerPart radix
  · refine .inl ⟨refused, ?_⟩
    rw [parseInt_eq radix taken rfl, baseOf_of_refused cs (by omega)]
    exact if_pos (by omega)
  · have fits : integerPart radix ≤ 0 ∨ 2 ≤ integerPart radix ∧ integerPart radix ≤ 36 := by omega
    have based := based_baseOf (integerPart radix) cs
    have base := based.fits fits
    have limited : min 4294967295 (integerPart radix).toNat = (integerPart radix).toNat := by omega
    refine .inr ⟨fits, sign, cs, _, _, text, apart, based, ?_⟩
    rw [parseInt_eq radix taken limited, signedIn]
    simp only [Nat.not_lt.2 base.1, Nat.not_lt.2 base.2, false_or]

example : parseInt "10" (-5.0) = 10.0 ∧ parseInt "10" 1.0 = nan := by
  decide +kernel

end Scriptlet.Number
