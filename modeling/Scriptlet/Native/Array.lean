import Scriptlet.Native.Argument
import Scriptlet.Text.Units

/-!
Methods of arrays.
-/

namespace Scriptlet.Native

open Eval

/-- The receiver of a method of arrays. -/
def thisArray (receiver : Value) (method : String) : Eval ArrayRef :=
  match receiver with
  | .array r => return r
  | _ => typeFault (.notArray method)

/-- The function among the arguments that a method calls. -/
def callbackOf (args : List Value) (method : String) : Eval Value := do
  match args with
  | [] => typeFault (.notFunctionIn method)
  | .function f :: _ => return .function f
  | other :: _ => typeFault (.notFunction (← gets (·.heap.inspect other)))

/-- Calls a function on the elements of an array in turn, from `place` on and `count` of them at
most. Each result is taken into an accumulator by `step`, which may also end the walk. -/
def walk {σ τ : Type} (r : Recursion) (ref : ArrayRef) (callback receiver : Value)
    (step : σ → Nat → Value → Value → Except τ σ) (place : Nat) (acc : σ) :
    Nat → Eval (Except τ σ)
  | 0 => return .ok acc
  | count + 1 => do
    match ← gets fun s => (s.heap.elements ref)[place]? with
    | none => return .ok acc
    | some x =>
      let result ← r.call callback receiver [x, index place, .array ref]
      match step acc place x result with
      | .error found => return .error found
      | .ok acc => walk r ref callback receiver step (place + 1) acc count

/-- Walks the elements that an array has when a method is called. -/
def eachElement {σ τ : Type} (r : Recursion) (receiver : Value) (args : List Value)
    (method : ArrayMethod) (start : σ) (step : σ → Nat → Value → Value → Except τ σ) :
    Eval (Except τ σ) := do
  let name := method.signature.name
  let ref ← thisArray receiver name
  let callback ← callbackOf args name
  let size ← gets fun s => (s.heap.elements ref).size
  walk r ref callback (argument args 1) step 0 start size

def map (r : Recursion) (receiver : Value) (args : List Value) : Eval Value := do
  let step (acc : Array Value) (_ : Nat) (_ result : Value) : Except Empty (Array Value) :=
    .ok (acc.push result)
  match ← eachElement r receiver args .map #[] step with
  | .ok acc => newArray acc

def filter (r : Recursion) (receiver : Value) (args : List Value) : Eval Value := do
  let step (acc : Array Value) (_ : Nat) (x result : Value) : Except Empty (Array Value) :=
    .ok (if result.truthy then acc.push x else acc)
  match ← eachElement r receiver args .filter #[] step with
  | .ok acc => newArray acc

def forEach (r : Recursion) (receiver : Value) (args : List Value) : Eval Value := do
  let step (_ : Unit) (_ : Nat) (_ _ : Value) : Except Empty Unit := .ok ()
  discard (eachElement r receiver args .forEach () step)
  return .undefined

/-- The first element, with its index, for which the outcome of the callback is as `wanted`. -/
def search (r : Recursion) (receiver : Value) (args : List Value) (method : ArrayMethod)
    (wanted : Bool) : Eval (Option (Nat × Value)) := do
  let step (_ : Unit) (i : Nat) (x result : Value) : Except (Nat × Value) Unit :=
    if result.truthy == wanted then .error (i, x) else .ok ()
  match ← eachElement r receiver args method () step with
  | .error found => return some found
  | .ok () => return none

/-- Combines elements from the left. -/
def fold (r : Recursion) (ref : ArrayRef) (callback : Value) (place : Nat) (acc : Value) :
    Nat → Eval Value
  | 0 => return acc
  | count + 1 => do
    match ← gets fun s => (s.heap.elements ref)[place]? with
    | none => return acc
    | some x =>
      let acc ← r.call callback .undefined [acc, x, index place, .array ref]
      fold r ref callback (place + 1) acc count

def reduce (r : Recursion) (receiver : Value) (args : List Value) : Eval Value := do
  let ref ← thisArray receiver ArrayMethod.reduce.signature.name
  let callback ← callbackOf args ArrayMethod.reduce.signature.name
  let xs ← gets (·.heap.elements ref)
  match args[1]?, xs[0]? with
  | some start, _ => fold r ref callback 0 start xs.size
  | none, some x => fold r ref callback 1 x (xs.size - 1)
  | none, none => typeFault .emptyReduce

/-! ### Sorting -/

/-- Whether `a` comes before `b`: by the outcome of a comparator, or by their texts. -/
def comesBefore (r : Recursion) (comparator : Option Value) (a b : Value) : Eval Bool := do
  match comparator with
  | some f =>
    let result ← r.call f .undefined [a, b]
    return (← toNumber r result) < 0.0
  | none =>
    let s ← toText r a
    let t ← toText r b
    return Text.compareUnits s t == .lt

/-- Merges sorted lists after `merged`, which is reversed. An element of the second list goes first
only if it comes before that of the first. -/
def merge (before : Value → Value → Eval Bool) (merged : List Value) :
    List Value → List Value → Eval (List Value)
  | [], ys => return merged.reverse ++ ys
  | xs, [] => return merged.reverse ++ xs
  | x :: xs, y :: ys => do
    if ← before y x then merge before (y :: merged) (x :: xs) ys
    else merge before (x :: merged) xs (y :: ys)
termination_by xs ys => xs.length + ys.length

/-- Sorts a list, keeping the order of elements of which none comes before the other. -/
def mergeSort (before : Value → Value → Eval Bool) (xs : List Value) : Eval (List Value) := do
  if xs.length ≤ 1 then return xs
  else
    let left ← mergeSort before (xs.take (xs.length / 2))
    let right ← mergeSort before (xs.drop (xs.length / 2))
    merge before [] left right
termination_by xs.length
decreasing_by all_goals (simp only [List.length_take, List.length_drop]; omega)

/-- Sorts the elements of an array in place; undefined ones go last. -/
def sort (r : Recursion) (receiver : Value) (args : List Value) : Eval Value := do
  let ref ← thisArray receiver ArrayMethod.sort.signature.name
  let comparator ← match argument args 0 with
    | .undefined => pure none
    | .function f => pure (some (.function f))
    | _ => typeFault .badComparator
  let xs ← gets fun s => (s.heap.elements ref).toList
  let (undefined, defined) := xs.partition (·.isUndefined)
  let sorted ← mergeSort (comesBefore r comparator) defined
  modifyHeap (·.modifyArray ref fun _ => (sorted ++ undefined).toArray)
  return receiver

/-! ### Texts -/

/-- The texts of elements, after those in `texts`, which is reversed; nothing for empty ones and for
the array itself. -/
def elementTexts (r : Recursion) (ref : ArrayRef) (texts : List String) :
    List Value → Eval (List String)
  | [] => return texts.reverse
  | x :: rest => do
    let text ← match x with
      | .undefined | .null => pure ""
      | .array nested => if nested == ref then pure "" else toText r x
      | other => toText r other
    elementTexts r ref (text :: texts) rest

def join (r : Recursion) (receiver : Value) (args : List Value) : Eval Value := do
  let ref ← thisArray receiver ArrayMethod.join.signature.name
  let separator ← match argument args 0 with
    | .undefined => pure ","
    | other => toText r other
  let xs ← gets fun s => (s.heap.elements ref).toList
  return .string (String.intercalate separator (← elementTexts r ref [] xs))

/-! ### Changing and reading elements -/

def push (ref : ArrayRef) (args : List Value) : Eval Value := do
  modifyHeap (·.modifyArray ref (· ++ args))
  gets fun s => index (s.heap.elements ref).size

def unshift (ref : ArrayRef) (args : List Value) : Eval Value := do
  modifyHeap (·.modifyArray ref (args.toArray ++ ·))
  gets fun s => index (s.heap.elements ref).size

def pop (ref : ArrayRef) : Eval Value := do
  let last ← gets fun s => (s.heap.elements ref).back?
  modifyHeap (·.modifyArray ref (·.pop))
  return last.getD .undefined

def shift (ref : ArrayRef) : Eval Value := do
  let first ← gets fun s => (s.heap.elements ref)[0]?
  modifyHeap (·.modifyArray ref fun xs => xs.extract 1 xs.size)
  return first.getD .undefined

def slice (ref : ArrayRef) (args : List Value) : Eval Value := do
  let xs ← gets (·.heap.elements ref)
  let start ← relativeIndex (argument args 0) xs.size 0
  let stop ← relativeIndex (argument args 1) xs.size xs.size
  newArray (xs.extract start stop)

/-- What a value adds to the array it is joined to. -/
def parts (h : Heap) : Value → Array Value
  | .array r => h.elements r
  | v => #[v]

def concat (ref : ArrayRef) (args : List Value) : Eval Value := do
  let all ← gets fun s => args.foldl (fun xs v => xs ++ parts s.heap v) (s.heap.elements ref)
  newArray all

def indexOf (ref : ArrayRef) (args : List Value) : Eval Value := do
  let xs ← gets (·.heap.elements ref)
  let start ← relativeIndex (argument args 1) xs.size 0
  let wanted := argument args 0
  let found := (xs.toList.drop start).findIdx? (·.strictEquals wanted)
  return indexOrMinusOne (found.map (start + ·))

def arrayMethod (r : Recursion) (m : ArrayMethod) (receiver : Value) (args : List Value) :
    Eval Value := do
  let this : Eval ArrayRef := thisArray receiver m.signature.name
  match m with
  | .push => push (← this) args
  | .pop => pop (← this)
  | .shift => shift (← this)
  | .unshift => unshift (← this) args
  | .slice => slice (← this) args
  | .concat => concat (← this) args
  | .join => join r receiver args
  | .indexOf => indexOf (← this) args
  | .includes =>
    let ref ← this
    let wanted := argument args 0
    gets fun s => .boolean ((s.heap.elements ref).any (·.sameValue wanted))
  | .reverse =>
    let ref ← this
    modifyHeap (·.modifyArray ref (·.reverse))
    return receiver
  | .map => map r receiver args
  | .filter => filter r receiver args
  | .forEach => forEach r receiver args
  | .reduce => reduce r receiver args
  | .some => return .boolean (← search r receiver args .some true).isSome
  | .every => return .boolean (← search r receiver args .every false).isNone
  | .find => return ((← search r receiver args .find true).map (·.2)).getD .undefined
  | .findIndex => return indexOrMinusOne ((← search r receiver args .findIndex true).map (·.1))
  | .sort => sort r receiver args
  | .toString => join r receiver []

end Scriptlet.Native
