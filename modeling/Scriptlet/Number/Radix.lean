import Scriptlet.Number.Arithmetic

/-!
Integers written in other bases.
-/

namespace Scriptlet.Number

/-- The digit of a value below 36. -/
def digitOf (n : Nat) : Char :=
  if n < 10 then Char.ofNat ('0'.toNat + n) else Char.ofNat ('a'.toNat + (n - 10))

/-- The digits of a magnitude, last one first. Each step divides by the base, so `fuel` bounds
the count of digits. -/
def radixDigits (base : Nat) : Nat → Float → List Char
  | 0, _ => []
  | fuel + 1, x =>
    if x < 1.0 then []
    else
      let digit := toCount base (remainder x (Float.ofNat base))
      digitOf digit :: radixDigits base fuel (trunc (x / Float.ofNat base))

/-- A whole number in a base from 2 to 36. No finite number has more than 1025 binary digits. -/
def textInBase (base : Nat) (x : Float) : String :=
  let ds := (radixDigits base 1100 x.abs).reverse
  let ds := if ds.isEmpty then ['0'] else ds
  String.ofList (if x < 0.0 then '-' :: ds else ds)

end Scriptlet.Number
