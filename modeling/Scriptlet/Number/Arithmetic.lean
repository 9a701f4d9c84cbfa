import Scriptlet.Number.Dyadic

/-!
Arithmetic on numbers beyond the four operations: remainder, truncation, powers, and the words of
32 bits that the bitwise operators work on.
-/

namespace Scriptlet.Number

def nan : Float := 0.0 / 0.0

def infinity : Float := 1.0 / 0.0

def negate (x : Float) : Float := -x

/-- Whether a number is an integer; the infinities are not. -/
def isWhole (x : Float) : Bool :=
  match Parts.ofFloat x with
  | .finite d => d.isInteger
  | _ => false

/-- The number without its fraction, keeping its sign. -/
def trunc (x : Float) : Float :=
  match Parts.ofFloat x with
  | .finite d =>
    if d.isInteger then x
    else if d.negative then negate (Float.ofNat d.magnitude)
    else Float.ofNat d.magnitude
  | _ => x

/-- The integer part, with NaN taken as zero. -/
def toInteger (x : Float) : Float :=
  if x.isNaN then 0.0 else trunc x

/-- A remainder of magnitudes, `r * 2 ^ e`. -/
def magnitudeRem (a b : Dyadic) : Nat × Int :=
  let e := min a.exponent b.exponent
  let align (d : Dyadic) : Nat := d.mantissa * Nat.pow 2 (d.exponent - e).toNat
  (align a % align b, e)

/-- The exact remainder of a truncating division; it has the sign of the dividend. -/
def remainder (x y : Float) : Float :=
  match Parts.ofFloat x, Parts.ofFloat y with
  | .finite a, .finite b =>
    if b.mantissa = 0 then nan
    else
      let (r, e) := magnitudeRem a b
      let size := scaled r e
      if a.negative then negate size else size
  | .finite _, .infinite _ => x
  | _, _ => nan

/-- A power. One to an infinite power has no value, nor has any power by NaN. -/
def power (base exponent : Float) : Float :=
  if exponent.isNaN || (base.abs == 1.0 && exponent.isInf) then nan
  else base.pow exponent

/-- The integer part modulo `2 ^ 32`. -/
def toUint32 (x : Float) : Nat :=
  match Parts.ofFloat x with
  | .finite d => (d.truncate % (Nat.pow 2 32 : Nat)).toNat
  | _ => 0

/-- The integer part modulo `2 ^ 32`, as a signed word. -/
def toInt32 (x : Float) : Int32 :=
  Int32.ofNat (toUint32 x)

def ofInt32 (w : Int32) : Float :=
  Float.ofInt w.toInt

/-- The integer part as a count: negative numbers and NaN give zero, and large ones `limit`. -/
def toCount (limit : Nat) (x : Float) : Nat :=
  match Parts.ofFloat x with
  | .nan => 0
  | .infinite negative => if negative then 0 else limit
  | .finite d => if d.negative then 0 else min limit d.magnitude

/-- The larger of two numbers that are not NaN. -/
def maximum (x y : Float) : Float :=
  if x < y then y else x

/-- The smaller of two numbers that are not NaN. -/
def minimum (x y : Float) : Float :=
  if y < x then y else x

/-- The sign of a number as one, zero (of the same sign) or minus one. -/
def sign (x : Float) : Float :=
  if x == 0.0 || x.isNaN then x else if x < 0.0 then -1.0 else 1.0

end Scriptlet.Number
