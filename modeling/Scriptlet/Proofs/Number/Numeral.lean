import Mathlib.Algebra.Order.Field.Basic
import Mathlib.Data.Rat.Cast.Defs
import Scriptlet.Number.Reader

/-!
Decimal numerals.

A numeral is a sign, digits around a point, and a power of ten; the sign, the point and the power
may be missing. Main statement: `readDecimal?_eq_some_iff`, by which the reader takes the texts of
numerals and no others, and gives their numbers.
-/

namespace Scriptlet.Number

/-- A sign that may be missing. -/
inductive Signum where
  | bare
  | plus
  | minus
  deriving DecidableEq, Repr

namespace Signum

def chars : Signum → List Char
  | bare => []
  | plus => ['+']
  | minus => ['-']

def negative : Signum → Bool
  | minus => true
  | _ => false

/-- The number with the sign. -/
def apply (sign : Signum) (x : Float) : Float :=
  if sign.negative then negate x else x

/-- One with the sign. -/
def unit (sign : Signum) : Int :=
  if sign.negative then -1 else 1

end Signum

/-- A text that does not start with a sign. -/
def Unsigned (cs : List Char) : Prop :=
  cs.head? ≠ some '+' ∧ cs.head? ≠ some '-'

/-- A text of decimal digits only. -/
def Digital (ds : List Char) : Prop :=
  ∀ c ∈ ds, c.isDigit = true

/-- A power of ten: a mark, a sign and digits. -/
structure Power where
  mark : Char
  sign : Signum
  digits : List Char
  isMark : mark = 'e' ∨ mark = 'E'
  digital : Digital digits
  given : digits ≠ []

namespace Power

def chars (p : Power) : List Char :=
  p.mark :: (p.sign.chars ++ p.digits)

def value (p : Power) : Int :=
  if p.sign.negative then -(natOfDigits p.digits : Int) else natOfDigits p.digits

end Power

/-- A decimal numeral. It has a digit before the point or after it. -/
structure Numeral where
  sign : Signum
  whole : List Char
  /-- The digits after the point, if there is a point. -/
  fraction : Option (List Char)
  power : Option Power
  digital : Digital (whole ++ fraction.getD [])
  given : whole ++ fraction.getD [] ≠ []

namespace Numeral

variable (n : Numeral)

/-- The text behind the digits before the point. -/
def tail : List Char :=
  n.fraction.elim [] ('.' :: ·) ++ n.power.elim [] Power.chars

/-- The text behind the sign. -/
def body : List Char :=
  n.whole ++ n.tail

def chars : List Char :=
  n.sign.chars ++ n.body

/-- The number that the digits spell without the point. -/
def significand : Nat :=
  natOfDigits (n.whole ++ n.fraction.getD [])

/-- The power of ten of the last digit. -/
def exponent : Int :=
  n.power.elim 0 Power.value - (n.fraction.getD []).length

/-- What the numeral stands for. -/
def value : ℚ :=
  n.sign.unit * (n.significand * 10 ^ n.exponent)

/-- The number nearest to the value. -/
def number : Float :=
  n.sign.apply (ofDecimal n.significand n.exponent)

/-- The parts that the reader makes of it. -/
def written : Written :=
  ⟨n.whole, n.fraction.getD [], n.power.elim 0 Power.value⟩

end Numeral

variable {cs ds rest : List Char} {c : Char}

/-! ### Signs -/

theorem takeSign_of_unsigned (unsigned : Unsigned cs) : takeSign cs = (false, cs) := by
  unfold takeSign
  split
  · exact absurd rfl unsigned.2
  · exact absurd rfl unsigned.1
  · rfl

theorem takeSign_chars (sign : Signum) (apart : sign = .bare → Unsigned rest) :
    takeSign (sign.chars ++ rest) = (sign.negative, rest) := by
  cases sign with
  | bare => exact takeSign_of_unsigned (apart rfl)
  | plus => rfl
  | minus => rfl

/-- Any text is a sign and a rest, and the sign is missing only if there is none. -/
theorem exists_takeSign (cs : List Char) : ∃ (sign : Signum) (rest : List Char),
    cs = sign.chars ++ rest ∧ takeSign cs = (sign.negative, rest) ∧
    (sign = .bare → Unsigned rest) := by
  unfold takeSign
  split
  · exact ⟨.minus, _, rfl, rfl, nofun⟩
  · exact ⟨.plus, _, rfl, rfl, nofun⟩
  next minus plus =>
    refine ⟨.bare, cs, rfl, rfl, fun _ => ⟨?_, ?_⟩⟩
    · intro head
      obtain ⟨rest, rfl⟩ := List.head?_eq_some_iff.1 head
      exact plus rest rfl
    · intro head
      obtain ⟨rest, rfl⟩ := List.head?_eq_some_iff.1 head
      exact minus rest rfl

/-! ### Digits -/

theorem digital_nil : Digital [] :=
  List.forall_mem_nil _

theorem Digital.append (first : Digital ds) (second : Digital rest) : Digital (ds ++ rest) := by
  intro c member
  exact (List.mem_append.1 member).elim (first c) (second c)

theorem Digital.left (digital : Digital (ds ++ rest)) : Digital ds :=
  fun c member => digital c (List.mem_append_left _ member)

theorem Digital.right (digital : Digital (ds ++ rest)) : Digital rest :=
  fun c member => digital c (List.mem_append_right _ member)

theorem Digital.all (digital : Digital ds) : ds.all Char.isDigit = true :=
  List.all_eq_true.2 digital

theorem digital_takeWhile (cs : List Char) : Digital (cs.takeWhile Char.isDigit) :=
  List.all_eq_true.1 List.all_takeWhile

theorem ne_of_isDigit (digit : c.isDigit = true) :
    c ≠ '+' ∧ c ≠ '-' ∧ c ≠ '.' ∧ c ≠ 'e' ∧ c ≠ 'E' := by
  refine ⟨?_, ?_, ?_, ?_, ?_⟩ <;> (rintro rfl; cases digit)

theorem Digital.unsigned (digital : Digital ds) (given : ds ≠ []) : Unsigned (ds ++ rest) := by
  obtain ⟨c, ds, rfl⟩ := List.exists_cons_of_ne_nil given
  have apart := ne_of_isDigit (digital c List.mem_cons_self)
  exact ⟨fun head => apart.1 (Option.some.inj head), fun head => apart.2.1 (Option.some.inj head)⟩

/-- A text whose first character is no digit. -/
def Stops (cs : List Char) : Prop :=
  ∀ c ∈ cs.head?, c.isDigit = false

theorem Digital.takeWhile (digital : Digital ds) (stops : Stops rest) :
    (ds ++ rest).takeWhile Char.isDigit = ds := by
  rw [List.takeWhile_append_of_pos digital]
  cases rest with
  | nil => exact List.append_nil ds
  | cons c rest => rw [List.takeWhile_cons_of_neg (by simpa using stops c rfl), List.append_nil]

theorem Digital.dropWhile (digital : Digital ds) (stops : Stops rest) :
    (ds ++ rest).dropWhile Char.isDigit = rest := by
  rw [List.dropWhile_append_of_pos digital]
  cases rest with
  | nil => rfl
  | cons c rest => exact List.dropWhile_cons_of_neg (by simpa using stops c rfl)

/-! ### Powers of ten -/

namespace Power

theorem readExponent?_chars (p : Power) : readExponent? p.chars = some p.value := by
  have sign := takeSign_chars p.sign fun _ => List.append_nil p.digits ▸ p.digital.unsigned p.given
  rw [chars, readExponent?, if_pos p.isMark, sign]
  simp [p.given, p.digital.all, value]

theorem stops (p : Option Power) : Stops (p.elim [] chars) := by
  intro c member
  cases p with
  | none => cases member
  | some p =>
    obtain rfl : p.mark = c := Option.some.inj member
    rcases p.isMark with mark | mark <;> rw [mark] <;> rfl

theorem head?_ne_point (p : Option Power) (rest : List Char) : p.elim [] chars ≠ '.' :: rest := by
  cases p with
  | none => exact (List.cons_ne_nil _ _).symm
  | some p =>
    intro point
    have mark := p.isMark
    rw [(List.cons.inj point).1] at mark
    simp at mark

end Power

theorem readExponent?_elim (p : Option Power) :
    readExponent? (p.elim [] Power.chars) = some (p.elim 0 Power.value) := by
  cases p with
  | none => rfl
  | some p => exact p.readExponent?_chars

theorem exists_power {e : Int} (read : readExponent? cs = some e) :
    ∃ p : Option Power, p.elim [] Power.chars = cs ∧ p.elim 0 Power.value = e := by
  cases cs with
  | nil => exact ⟨none, rfl, Option.some.inj read⟩
  | cons c cs =>
    obtain ⟨sign, ds, rfl, taken, -⟩ := exists_takeSign cs
    rw [readExponent?, taken] at read
    simp only [Option.ite_none_right_eq_some, Option.ite_none_left_eq_some, Bool.or_eq_true, not_or,
      List.isEmpty_iff, Bool.not_eq_true', Bool.not_eq_false, Option.some.injEq] at read
    obtain ⟨mark, ⟨given, digital⟩, value⟩ := read
    exact ⟨some ⟨c, sign, ds, mark, List.all_eq_true.1 digital, given⟩, rfl, value⟩

/-! ### Numerals -/

namespace Numeral

theorem stops_tail (n : Numeral) : Stops n.tail := by
  unfold tail
  cases n.fraction with
  | none => exact Power.stops n.power
  | some ds =>
    intro c member
    obtain rfl : '.' = c := Option.some.inj member
    rfl

theorem readUnsigned?_body (n : Numeral) : readUnsigned? n.body = some n.written := by
  have whole : Digital n.whole := n.digital.left
  have fraction : Digital (n.fraction.getD []) := n.digital.right
  have given : (n.whole.isEmpty && (n.fraction.getD []).isEmpty) = false := by
    rw [Bool.and_eq_false_iff, List.isEmpty_eq_false_iff, List.isEmpty_eq_false_iff]
    by_contra none
    simp only [not_or, not_not] at none
    exact n.given (by rw [none.1, none.2]; rfl)
  rw [readUnsigned?, body, whole.takeWhile n.stops_tail, whole.dropWhile n.stops_tail]
  unfold tail written
  cases point : n.fraction with
  | none =>
    rw [point] at given
    have behind : ([] ++ n.power.elim [] Power.chars : List Char) =
      n.power.elim [] Power.chars := rfl
    simp only [Option.elim_none, behind]
    split
    next rest there => exact absurd there (Power.head?_ne_point n.power rest)
    next =>
      simp only [Option.getD_none] at given ⊢
      simp only [given, readExponent?_elim]
      rfl
  | some ds =>
    rw [point] at given fraction
    have stops := Power.stops n.power
    simp only [Option.elim_some, List.cons_append, Option.getD_some] at given fraction ⊢
    simp only [fraction.takeWhile stops, fraction.dropWhile stops, given, readExponent?_elim]
    rfl

theorem unsigned_body (n : Numeral) : Unsigned n.body := by
  by_cases none : n.whole = []
  · rw [body, none]
    unfold tail
    cases point : n.fraction with
    | none =>
      have given := n.given
      rw [none, point] at given
      exact absurd rfl given
    | some ds => exact ⟨by simp, by simp⟩
  · exact n.digital.left.unsigned none

theorem readDecimal?_chars (n : Numeral) : readDecimal? n.chars = some n.number := by
  rw [readDecimal?, chars, takeSign_chars n.sign fun _ => n.unsigned_body]
  simp only [readUnsigned?_body, Option.map_some]
  rfl

theorem chars_ne_nil (n : Numeral) : n.chars ≠ [] := by
  intro none
  have read := n.readDecimal?_chars
  rw [none] at read
  cases read

end Numeral

/-- Behind the first digits there is a point with digits, or no point. -/
theorem readUnsigned?_eq (cs : List Char) : ∃ (fraction : Option (List Char)) (rest : List Char),
    cs.dropWhile Char.isDigit = fraction.elim [] ('.' :: ·) ++ rest ∧ Digital (fraction.getD []) ∧
      readUnsigned? cs =
        if (cs.takeWhile Char.isDigit).isEmpty && (fraction.getD []).isEmpty then none
        else (readExponent? rest).map fun e =>
          ⟨cs.takeWhile Char.isDigit, fraction.getD [], e⟩ := by
  unfold readUnsigned?
  generalize cs.dropWhile Char.isDigit = behind
  split
  next parts =>
    split at parts
    next rest =>
      cases parts
      refine ⟨some (rest.takeWhile Char.isDigit), rest.dropWhile Char.isDigit, ?_,
        digital_takeWhile rest, rfl⟩
      rw [Option.elim_some, List.cons_append, List.takeWhile_append_dropWhile]
    next =>
      cases parts
      exact ⟨none, behind, rfl, digital_nil, rfl⟩

/-- What is read without a sign is the body of a numeral, with whichever sign. -/
theorem exists_numeral {w : Written} (read : readUnsigned? cs = some w) (sign : Signum) :
    ∃ n : Numeral, n.sign = sign ∧ n.body = cs ∧ n.written = w := by
  obtain ⟨fraction, rest, behind, digital, parts⟩ := readUnsigned?_eq cs
  rw [parts] at read
  simp only [Option.ite_none_left_eq_some, Bool.and_eq_true, List.isEmpty_iff,
    Option.map_eq_some_iff] at read
  obtain ⟨given, e, exponent, rfl⟩ := read
  obtain ⟨power, rfl, rfl⟩ := exists_power exponent
  refine
    ⟨⟨sign, cs.takeWhile Char.isDigit, fraction, power, (digital_takeWhile cs).append digital, ?_⟩,
    rfl, ?_, rfl⟩
  · rwa [ne_eq, List.append_eq_nil_iff]
  · change cs.takeWhile Char.isDigit ++
      (fraction.elim [] ('.' :: ·) ++ power.elim [] Power.chars) = cs
    rw [← behind, List.takeWhile_append_dropWhile]

/-- The reader of decimals takes numerals and nothing else. -/
theorem readDecimal?_eq_some_iff {x : Float} :
    readDecimal? cs = some x ↔ ∃ n : Numeral, n.chars = cs ∧ n.number = x := by
  constructor
  · intro read
    obtain ⟨sign, rest, rfl, taken, -⟩ := exists_takeSign cs
    rw [readDecimal?, taken] at read
    obtain ⟨w, unsigned, rfl⟩ := Option.map_eq_some_iff.1 read
    obtain ⟨n, rfl, rfl, rfl⟩ := exists_numeral unsigned sign
    exact ⟨n, rfl, rfl⟩
  · rintro ⟨n, rfl, rfl⟩
    exact n.readDecimal?_chars

end Scriptlet.Number
