/-!
Finite numbers as a sign, an integer significand and a power of two.
-/

namespace Scriptlet.Number

/-- The number `± mantissa * 2 ^ exponent`. -/
structure Dyadic where
  negative : Bool
  mantissa : Nat
  exponent : Int
  deriving DecidableEq, Repr

/-- A number read off its bits. -/
inductive Parts where
  | nan
  | infinite (negative : Bool)
  | finite (value : Dyadic)
  deriving DecidableEq, Repr

/-- The least exponent, that of the subnormal numbers. -/
def minExponent : Int := -1074

/-- The significand of a normal number has this bit set. -/
def hiddenBit : Nat := Nat.pow 2 52

def Parts.ofBits (bits : Nat) : Parts :=
  let negative := bits / Nat.pow 2 63 % 2 == 1
  let biased : Nat := bits / Nat.pow 2 52 % Nat.pow 2 11
  let fraction : Nat := bits % Nat.pow 2 52
  if biased = 2047 then
    if fraction = 0 then .infinite negative else .nan
  else if biased = 0 then .finite ⟨negative, fraction, minExponent⟩
  else .finite ⟨negative, fraction + hiddenBit, (biased : Int) - 1075⟩

def Parts.ofFloat (x : Float) : Parts :=
  .ofBits x.toBits.toNat

namespace Dyadic

/-- The integer part of the magnitude. -/
def magnitude (d : Dyadic) : Nat :=
  if 0 ≤ d.exponent then d.mantissa * Nat.pow 2 d.exponent.toNat
  else d.mantissa / Nat.pow 2 (-d.exponent).toNat

/-- Whether the number has no fraction. -/
def isInteger (d : Dyadic) : Bool :=
  0 ≤ d.exponent || d.mantissa % Nat.pow 2 (-d.exponent).toNat == 0

/-- The number without its fraction. -/
def truncate (d : Dyadic) : Int :=
  if d.negative then -(d.magnitude : Int) else d.magnitude

end Dyadic

/-- A small nonnegative integer scaled by a power of two. -/
def scaled (n : Nat) (e : Int) : Float :=
  (Float.ofNat n).scaleB e

/-- Whether the sign bit is set, which tells the two zeros apart. -/
def isNegative (x : Float) : Bool :=
  x.toBits.toNat / Nat.pow 2 63 % 2 == 1

end Scriptlet.Number
