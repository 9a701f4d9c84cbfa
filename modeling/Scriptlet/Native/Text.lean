import Scriptlet.Native.Argument
import Scriptlet.Text.Case
import Scriptlet.Text.Search

/-!
Methods of texts. Places in a text count characters.
-/

namespace Scriptlet.Native

open Eval

/-- The text that a method of texts works on. -/
def thisText (r : Recursion) (receiver : Value) : Eval String :=
  match receiver with
  | .string s => return s
  | .undefined | .null => typeFault .textOfNothing
  | other => toText r other

def textArgument (r : Recursion) (args : List Value) (i : Nat) : Eval String :=
  toText r (argument args i)

/-- The character at the place that an argument gives. -/
def charAt? (s : String) (place : Value) : Eval (Option Char) := do
  let i ← integerOf place
  return if i < 0.0 then none else s.toList[Number.toCount maxCount i]?

def textSlice (s : String) (args : List Value) : Eval Value := do
  let cs := s.toList
  let start ← relativeIndex (argument args 0) cs.length 0
  let stop ← relativeIndex (argument args 1) cs.length cs.length
  return .string (String.ofList ((cs.take stop).drop start))

/-- A place in a text `length` long; negative ones count as zero. -/
def placeOf (v : Value) (length missing : Nat) : Eval Nat := do
  if v.isUndefined then return missing
  else return Number.toCount length (← integerOf v)

def substring (s : String) (args : List Value) : Eval Value := do
  let cs := s.toList
  let a ← placeOf (argument args 0) cs.length 0
  let b ← placeOf (argument args 1) cs.length cs.length
  return .string (String.ofList ((cs.take (max a b)).drop (min a b)))

def textIndexOf (r : Recursion) (s : String) (args : List Value) : Eval Value := do
  let needle ← textArgument r args 0
  let start ← countOf (argument args 1)
  return indexOrMinusOne (Text.find? s.toList needle.toList start)

def startsWith (r : Recursion) (s : String) (args : List Value) : Eval Value := do
  let start ← textArgument r args 0
  let place ← countOf (argument args 1)
  return .boolean (start.toList.isPrefixOf (s.toList.drop place))

/-- The texts between the occurrences of a separator, a limited number of them. -/
def split (r : Recursion) (s : String) (args : List Value) : Eval Value := do
  let limit? ← match argument args 1 with
    | .undefined => pure none
    | v => gets fun st => some (Number.toUint32 (st.heap.number v))
  let parts ← match argument args 0 with
    | .undefined => pure [s]
    | v =>
      let separator ← toText r v
      pure ((Text.splitAt s.toList separator.toList).map String.ofList)
  let kept := match limit? with
    | none => parts
    | some limit => parts.take limit
  newArray (kept.map .string).toArray

def repeated (s : String) (args : List Value) : Eval Value := do
  let count ← integerOf (argument args 0)
  if count < 0.0 || count.isInf then rangeFault (.repeatCount (Number.text count))
  else if Float.ofNat s.utf8ByteSize * count > Float.ofNat Value.maxTextLength then
    rangeFault .textLength
  else if s.isEmpty then return .string ""
  else return .string (Text.replicate s (Number.toCount maxCount count))

/-- The text that fills another one up to a width. -/
def padding (r : Recursion) (s : String) (args : List Value) : Eval String := do
  let width ← countOf (argument args 0)
  let filler ← match argument args 1 with
    | .undefined => pure " "
    | v => toText r v
  if width ≤ s.length || filler.isEmpty then return ""
  else if width > Value.maxTextLength then rangeFault .textLength
  else return String.ofList (Text.cycle filler.toList (width - s.length))

/-- A text followed by the texts of values. -/
def appendAll (r : Recursion) (s : String) : List Value → Eval String
  | [] => return s
  | v :: rest => do
    let t ← toText r v
    appendAll r (s ++ t) rest

def textMethod (r : Recursion) (m : TextMethod) (receiver : Value) (args : List Value) :
    Eval Value := do
  match m with
  | .toString | .valueOf => return receiver
  | _ =>
    let s ← thisText r receiver
    match m with
    | .toString | .valueOf => return receiver
    | .charAt => return .string (((← charAt? s (argument args 0)).map Char.toString).getD "")
    | .charCodeAt =>
      match ← charAt? s (argument args 0) with
      | some c => return .number (Float.ofNat c.toNat)
      | none => return .number Number.nan
    | .indexOf => textIndexOf r s args
    | .includes =>
      let needle ← textArgument r args 0
      return .boolean (Text.occurs needle.toList s.toList)
    | .slice => textSlice s args
    | .substring => substring s args
    | .toUpperCase => return .string (Text.toUpper s)
    | .toLowerCase => return .string (Text.toLower s)
    | .trim => return .string (Text.trim s)
    | .trimStart => return .string (Text.trimStart s)
    | .trimEnd => return .string (Text.trimEnd s)
    | .split => split r s args
    | .startsWith => startsWith r s args
    | .endsWith =>
      let stop ← textArgument r args 0
      return .boolean (stop.toList.isSuffixOf s.toList)
    | .repeat => repeated s args
    | .padStart => return .string ((← padding r s args) ++ s)
    | .padEnd => return .string (s ++ (← padding r s args))
    | .concat => return .string (← appendAll r s args)

end Scriptlet.Native
