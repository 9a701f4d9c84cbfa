import Scriptlet.Number.Dyadic

/-!
Numbers with a fixed count of decimal places.
-/

namespace Scriptlet.Number

/-- The quotient rounded to the nearest integer, a half going to the even neighbour. -/
def roundDiv (num den : Nat) : Nat :=
  let q := num / den
  let r := num % den
  if 2 * r < den then q
  else if den < 2 * r then q + 1
  else if q % 2 = 0 then q else q + 1

/-- The number of units of `10 ^ -places` nearest to the magnitude of a number. -/
def Dyadic.units (d : Dyadic) (places : Nat) : Nat :=
  roundDiv (d.mantissa * Nat.pow 10 places * Nat.pow 2 d.exponent.toNat)
    (Nat.pow 2 (-d.exponent).toNat)

/-- The decimal digits of `n`, at least `width` of them. -/
def paddedDigits (n width : Nat) : List Char :=
  let ds := Nat.toDigits 10 n
  List.replicate (width - ds.length) '0' ++ ds

/-- The text of a finite number with `places` decimal places. -/
def fixed (d : Dyadic) (places : Nat) : String :=
  let ds := paddedDigits (d.units places) (places + 1)
  let whole := ds.take (ds.length - places)
  let body := if places = 0 then whole else whole ++ '.' :: ds.drop (ds.length - places)
  String.ofList (if d.negative then '-' :: body else body)

end Scriptlet.Number
