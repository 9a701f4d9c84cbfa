import Scriptlet.Eval.Monad
import Scriptlet.Value.ToJson

/-!
Properties of values, and the errors that scripts see.
-/

namespace Scriptlet

/-- The method that all values of a type share. -/
def Methods.find? (m : Methods) (v : Value) (key : String) : Option Value :=
  let table : Table FunctionRef :=
    match v with
    | .array _ => m.array
    | .string _ => m.text
    | .number _ => m.number
    | .function _ => m.function
    | .object _ => m.object
    | .undefined | .null | .boolean _ => {}
  (table.get? key).map .function

namespace Eval

/-- The object that instances of a function inherit from. A script function that is no arrow gets a
fresh one when it is first asked for. -/
def functionPrototype (r : FunctionRef) : Eval Value := do
  match ← gets (·.heap.function? r) with
  | none => return .undefined
  | some f =>
    match f.props.get? "prototype" with
    | some v => return v
    | none =>
      if f.isArrow || !f.isClosure then return .undefined
      else
        let o ← newObject {}
        modifyHeap (·.modifyFunction r fun f =>
          { f with props := f.props.insert "prototype" (.object o) })
        return .object o

def ownOrShared (v : Value) (key : String) : Eval Value :=
  gets fun s =>
    match s.heap.get? v key with
    | some found => found
    | none => (s.realm.methods.find? v key).getD .undefined

/-- The value of a property; undefined if there is none. -/
def getProperty (v : Value) (key : String) : Eval Value :=
  match v with
  | .undefined => typeFault (.cannotRead "undefined" key)
  | .null => typeFault (.cannotRead "null" key)
  | .function r => if key = "prototype" then functionPrototype r else ownOrShared v key
  | _ => ownOrShared v key

/-- An array made `n` long, with undefined in new places. -/
def resize (n : Nat) (xs : Array Value) : Array Value :=
  if xs.size < n then xs ++ Array.replicate (n - xs.size) .undefined else xs.shrink n

/-- The length that a number asks for, if an array can have it. -/
def lengthOf? (x : Float) : Option Nat :=
  if x < 0.0 || !Number.isWhole x then none
  else
    let n := Number.toCount (Value.maxArrayLength + 1) x
    if n ≤ Value.maxArrayLength then some n else none

def setElement (r : ArrayRef) (i : Nat) (value : Value) : Eval Unit := do
  let size ← gets fun s => (s.heap.elements r).size
  if i < size then
    modifyHeap (·.modifyArray r (·.setIfInBounds i value))
  else if i < Value.maxArrayLength then
    modifyHeap (·.modifyArray r fun xs => (resize i xs).push value)
  else rangeFault .arrayLength

def setProperty (v : Value) (key : String) (value : Value) : Eval Unit := do
  match v with
  | .undefined => typeFault (.cannotSet "undefined" key)
  | .null => typeFault (.cannotSet "null" key)
  | .object r =>
    modifyHeap (·.modifyObject r fun o => { o with props := o.props.insert key value })
  | .array r =>
    if key = "length" then
      match lengthOf? (← gets (·.heap.number value)) with
      | some n => modifyHeap (·.modifyArray r (resize n))
      | none => rangeFault .arrayLength
    else
      match arrayIndex? key with
      | some i => setElement r i value
      | none => return
  | .function r =>
    modifyHeap (·.modifyFunction r fun f => { f with props := f.props.insert key value })
  | .boolean _ | .number _ | .string _ => return

/-- Removes a property, and tells whether it may be removed. -/
def deleteProperty (v : Value) (key : String) : Eval Bool := do
  match v with
  | .undefined | .null => typeFault (.cannotDelete key)
  | .object r =>
    modifyHeap (·.modifyObject r fun o => { o with props := o.props.erase key })
    return true
  | .array r =>
    match arrayIndex? key with
    | some i => modifyHeap (·.modifyArray r (·.setIfInBounds i .undefined))
    | none => pure ()
    return key != "length"
  | .function r =>
    modifyHeap (·.modifyFunction r fun f => { f with props := f.props.erase key })
    return true
  | _ => return true

/-- Whether a container has a property. -/
def hasProperty (v : Value) (key : String) : Eval Bool := do
  let h ← gets (·.heap)
  match v with
  | .object r => return h.inherits r key
  | .array r =>
    return key == "length" || (arrayIndex? key).any (· < (h.elements r).size)
  | .function r =>
    return ((h.function? r).bind (·.props.get? key)).isSome ||
      key == "name" || key == "length" || key == "prototype"
  | other => typeFault (.cannotSearch key (h.text other))

/-- The values that a value spreads into. -/
def iterate (v : Value) : Eval (List Value) := do
  match v with
  | .array r => gets fun s => (s.heap.elements r).toList
  | .string s => return s.toList.map fun c => .string c.toString
  | other => typeFault (.notIterable (← gets (·.heap.inspect other)))

/-- The value of a JSON text. -/
def fromJson (j : Json) : Eval Value := fun s =>
  let (v, heap) := s.heap.ofJson j
  .ok v { s with heap := heap }

/-! ### Errors -/

/-- The object that errors of a global constructor inherit from. -/
def errorPrototype? (s : State) (name : String) : Option ObjectRef :=
  match s.scopes.lookup? Arena.root name with
  | some (_, ⟨.function r, _⟩) =>
    match (s.heap.function? r).bind (·.props.get? "prototype") with
    | some (.object p) => some p
    | _ => none
  | _ => none

/-- An error object. It carries its own name only if no global of that name lends it one. -/
def makeError (name message : String) : Eval Value := do
  let parent ← gets (errorPrototype? · name)
  let named : Table Value := if parent.isSome then {} else Table.ofList [("name", .string name)]
  let o ← newObject { props := named.insert "message" (.string message), prototype := parent }
  return .object o

/-- The value that a handler receives for a fault. -/
def errorValue (f : Fault) : Eval Value := do
  match f.cause with
  | .thrown v => return v
  | c => makeError c.kind.constructorName (← gets fun s => c.message s.heap)

end Eval

end Scriptlet
