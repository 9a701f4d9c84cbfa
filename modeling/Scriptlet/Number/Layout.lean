import Scriptlet.Number.Shortest

/-!
Number texts: how the digits of a decimal are laid out.
-/

namespace Scriptlet.Number

/-- The decisions of a number format. -/
structure Layout where
  /-- Which of two equally near shortest decimals is written. -/
  tie : Tie
  /-- The least and the greatest order of the first digit that is written without exponent. -/
  plain : Int × Int
  /-- Whether an integer written without exponent ends in `.0`. -/
  pointed : Bool
  /-- The texts of the two zeros, of NaN and of infinity. -/
  zero : String
  negativeZero : String
  nan : String
  infinity : String

namespace Layout

/-- Digits with the decimal point after the first `point` of them. -/
def withPoint (pointed : Bool) (ds : List Char) (point : Int) : List Char :=
  let k : Int := ds.length
  if k ≤ point then
    ds ++ List.replicate (point - k).toNat '0' ++ (if pointed then ['.', '0'] else [])
  else if 0 < point then
    ds.take point.toNat ++ '.' :: ds.drop point.toNat
  else '0' :: '.' :: List.replicate (-point).toNat '0' ++ ds

/-- One digit before the point, and the exponent with its sign. -/
def withExponent (ds : List Char) (order : Int) : List Char :=
  let rest := ds.drop 1
  ds.take 1 ++ (if rest.isEmpty then [] else '.' :: rest) ++
    'e' :: (if 0 ≤ order then '+' else '-') :: Nat.toDigits 10 order.natAbs

/-- The text of a positive decimal. -/
def decimal (l : Layout) (d : Decimal) : List Char :=
  let order := d.order
  if l.plain.1 ≤ order ∧ order ≤ l.plain.2 then withPoint l.pointed d.digits (order + 1)
  else withExponent d.digits order

/-- The text of a number. -/
def render (l : Layout) (x : Float) : String :=
  match Parts.ofFloat x with
  | .nan => l.nan
  | .infinite negative => if negative then "-" ++ l.infinity else l.infinity
  | .finite d =>
    if d.mantissa = 0 then
      if d.negative then l.negativeZero else l.zero
    else
      let body := l.decimal (shortest l.tie d.mantissa d.exponent)
      String.ofList (if d.negative then '-' :: body else body)

end Layout

/-- The text scripts see: no exponent from 1e-6 up to 1e21. -/
def scriptLayout : Layout where
  tie := .up
  plain := (-6, 20)
  pointed := false
  zero := "0"
  negativeZero := "0"
  nan := "NaN"
  infinity := "Infinity"

/-- The text of a fraction in JSON: no exponent from 1e-5 up to 1e16, and always a point. -/
def jsonLayout : Layout where
  tie := .even
  plain := (-5, 15)
  pointed := true
  zero := "0.0"
  negativeZero := "-0.0"
  nan := "null"
  infinity := "null"

/-- The text of an expected number in a failed assertion: never an exponent. -/
def reportLayout : Layout where
  tie := .up
  plain := (-400, 400)
  pointed := false
  zero := "0"
  negativeZero := "-0"
  nan := "NaN"
  infinity := "inf"

/-- The text scripts see for a number. -/
def text (x : Float) : String :=
  scriptLayout.render x

end Scriptlet.Number
