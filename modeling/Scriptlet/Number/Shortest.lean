import Scriptlet.Number.Dyadic

/-!
The fewest decimal digits that read back as a given number, and of those the nearest.

A number `m * 2 ^ q` is the value of all reals up to halfway to its neighbours. The grids of
decimals with one digit, two digits and so on are tried in turn, and on each grid only the two
points next to the number.
-/

namespace Scriptlet.Number

/-- Which of two equally near decimals is taken. -/
inductive Tie where
  | up
  | even
  deriving DecidableEq, Repr

/-- The decimal `significand * 10 ^ exponent`. -/
structure Decimal where
  significand : Nat
  exponent : Int
  deriving DecidableEq, Repr

namespace Decimal

/-- The digits, first one first. -/
def digits (d : Decimal) : List Char :=
  Nat.toDigits 10 d.significand

/-- The power of ten of the first digit. -/
def order (d : Decimal) : Int :=
  d.exponent + d.digits.length - 1

end Decimal

/-- The reals that read as `m * 2 ^ q`, in units of `2 ^ (q - 2)`. -/
structure Basin where
  low : Nat
  mid : Nat
  high : Nat
  closed : Bool

/-- The lower neighbour of a power of two is nearer than the upper one. The ends belong to the
number whose significand is even. -/
def Basin.of (m : Nat) (q : Int) : Basin where
  low := 4 * m - (if m = hiddenBit ∧ minExponent < q then 1 else 2)
  mid := 4 * m
  high := 4 * m + 2
  closed := m % 2 == 0

/-- The basin scaled so that the grid of step `10 ^ t` has integer points, with that step. -/
def Basin.onGrid (b : Basin) (q t : Int) : Basin × Nat :=
  let up := Nat.pow 2 (q - 2).toNat * Nat.pow 10 (-t).toNat
  (⟨b.low * up, b.mid * up, b.high * up, b.closed⟩,
    Nat.pow 10 t.toNat * Nat.pow 2 (2 - q).toNat)

def Basin.holds (b : Basin) (y : Nat) : Bool :=
  if b.closed then b.low ≤ y && y ≤ b.high else b.low < y && y < b.high

/-- The nearest point of the grid that reads as the number, if there is one. -/
def Basin.nearest? (b : Basin) (tie : Tie) (step : Nat) : Option Nat :=
  let below := b.mid / step
  let above := below + 1
  match b.holds (below * step), b.holds (above * step) with
  | true, true =>
    let down := b.mid - below * step
    let up := above * step - b.mid
    if down < up then some below
    else if up < down then some above
    else match tie with
      | .up => some above
      | .even => if below % 2 = 0 then some below else some above
  | true, false => some below
  | false, true => some above
  | false, false => none

/-- The first hit on the grids `10 ^ t`, `10 ^ (t - 1)` and so on, at most `n` of them. -/
def firstHit (b : Basin) (q : Int) (tie : Tie) : Nat → Int → Decimal
  | 0, t => ⟨b.mid / 4, t⟩
  | n + 1, t =>
    let (scaled, step) := b.onGrid q t
    match scaled.nearest? tie step with
    | some d => ⟨d, t⟩
    | none => firstHit b q tie n (t - 1)

/-- An exponent of ten whose power is above the number. -/
def orderBound (m : Nat) (q : Int) : Int :=
  (Nat.log2 m + q) * 30103 / 100000 + 2

/-- The shortest decimal that reads as `m * 2 ^ q`, for `m` positive. -/
def shortest (tie : Tie) (m : Nat) (q : Int) : Decimal :=
  firstHit (.of m q) q tie 20 (orderBound m q)

end Scriptlet.Number
