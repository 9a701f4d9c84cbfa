import Scriptlet.Eval.Convert

/-!
How functions that come with the language read their arguments.
-/

namespace Scriptlet.Native

open Eval

/-- An argument; undefined if it is missing. -/
def argument (args : List Value) (i : Nat) : Value :=
  args.getD i .undefined

/-- The largest count that a number can ask for. -/
def maxCount : Nat := Nat.pow 2 64 - 1

/-- The integer part of an argument, without running script code. -/
def integerOf (v : Value) : Eval Float :=
  gets fun s => Number.toInteger (s.heap.number v)

/-- The integer part of an argument as a count; negative ones count as zero. -/
def countOf (v : Value) : Eval Nat := do
  return Number.toCount maxCount (← integerOf v)

/-- A place in something `length` long, counted from the end if it is negative. -/
def relativeIndex (v : Value) (length missing : Nat) : Eval Nat := do
  if v.isUndefined then return missing
  let place ← integerOf v
  if place < 0.0 then return Number.toCount length (Float.ofNat length + place)
  else return Number.toCount length place

/-- The index as a value. -/
def index (i : Nat) : Value :=
  .number (Float.ofNat i)

/-- The index of what was found, or minus one. -/
def indexOrMinusOne : Option Nat → Value
  | some i => index i
  | none => .number (-1.0)

end Scriptlet.Native
