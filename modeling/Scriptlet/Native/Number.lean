import Scriptlet.Native.Argument
import Scriptlet.Number.Fixed
import Scriptlet.Number.Radix

/-!
Methods of numbers.
-/

namespace Scriptlet.Native

open Eval

def thisNumber (receiver : Value) : Eval Float :=
  match receiver with
  | .number x => return x
  | _ => typeFault .notNumber

/-- From this size on numbers are not written with a fixed count of decimals. -/
def fixedLimit : Float := 1e21

def toFixed (x : Float) (args : List Value) : Eval Value := do
  let digits ← integerOf (argument args 0)
  if !(0.0 ≤ digits && digits ≤ 100.0) then rangeFault .fixedDigits
  else
    match Number.Parts.ofFloat x with
    | .finite d =>
      if x.abs < fixedLimit then return .string (Number.fixed d (Number.toCount 100 digits))
      else return .string (Number.text x)
    | _ => return .string (Number.text x)

/-- A number in a base; fractions are written in base ten only. -/
def toStringIn (x : Float) (args : List Value) : Eval Value := do
  let base ← match argument args 0 with
    | .undefined => pure 10.0
    | v => integerOf v
  if !(2.0 ≤ base && base ≤ 36.0) then rangeFault .radix
  else if base == 10.0 || !Number.isWhole x then return .string (Number.text x)
  else return .string (Number.textInBase (Number.toCount 36 base) x)

def numberMethod (m : NumberMethod) (receiver : Value) (args : List Value) : Eval Value := do
  match m with
  | .toFixed => toFixed (← thisNumber receiver) args
  | .toString => toStringIn (← thisNumber receiver) args
  | .valueOf => return receiver

end Scriptlet.Native
