import Scriptlet.Eval.Recursion

/-!
Conversions that may run script code: objects and functions are asked for a primitive value by their
own methods.
-/

namespace Scriptlet.Eval

/-- Which conversion a container is asked for first. -/
inductive Preference where
  | number
  | text
  deriving DecidableEq, Repr

def Preference.methods : Preference → List String
  | .number => ["valueOf", "toString"]
  | .text => ["toString", "valueOf"]

/-- The primitive value that the first willing method of a container gives. -/
def askMethods (r : Recursion) (v : Value) : List String → Eval Value
  | [] => gets fun s => .string (s.heap.text v)
  | name :: rest => do
    let method ← getProperty v name
    if method.isFunction then
      let result ← r.call method v []
      if result.isContainer then askMethods r v rest else return result
    else askMethods r v rest

/-- The primitive value of a value. -/
def toPrimitive (r : Recursion) (preference : Preference) (v : Value) : Eval Value :=
  match v with
  | .object _ | .function _ => askMethods r v preference.methods
  | .array _ => gets fun s => .string (s.heap.text v)
  | _ => return v

def toText (r : Recursion) (v : Value) : Eval String := do
  let p ← match v with
    | .object _ | .function _ => toPrimitive r .text v
    | _ => pure v
  gets (·.heap.text p)

def toNumber (r : Recursion) (v : Value) : Eval Float := do
  let p ← match v with
    | .object _ | .function _ => toPrimitive r .number v
    | _ => pure v
  gets (·.heap.number p)

/-- The key that a value stands for between brackets. -/
def toKey (r : Recursion) (v : Value) : Eval String :=
  toText r v

end Scriptlet.Eval
