import Scriptlet.Native.Argument

/-!
Methods of functions and of plain objects.
-/

namespace Scriptlet.Native

open Eval

def apply (r : Recursion) (receiver : Value) (args : List Value) : Eval Value := do
  let list ← match argument args 1 with
    | .undefined | .null => pure []
    | .array ref => gets fun s => (s.heap.elements ref).toList
    | _ => typeFault .notArgumentList
  r.call receiver (argument args 0) list

/-- A function with a fixed receiver and fixed first arguments. -/
def bind (receiver : Value) (args : List Value) : Eval Value := do
  match receiver with
  | .function target =>
    let leading := args.drop 1
    let f? ← gets (·.heap.function? target)
    let name := (f?.map (·.name)).getD ""
    let arity := (f?.map (·.arity)).getD 0
    newFunction {
      name := "bound " ++ name
      callable := .native (arity - leading.length) (.bound target (argument args 0) leading) }
  | _ => typeFault .notBindable

def functionMethod (r : Recursion) (m : FunctionMethod) (receiver : Value) (args : List Value) :
    Eval Value := do
  match m with
  | .call => r.call receiver (argument args 0) args.tail
  | .apply => apply r receiver args
  | .bind => bind receiver args
  | .toString => gets fun s => .string (s.heap.text receiver)

def objectMethod (r : Recursion) (m : ObjectMethod) (receiver : Value) (args : List Value) :
    Eval Value := do
  match m with
  | .hasOwnProperty =>
    let key ← toKey r (argument args 0)
    match receiver with
    | .object o => gets fun s => .boolean ((s.heap.object o).props.contains key)
    | _ => return .boolean false
  | .toString => return .string "[object Object]"
  | .valueOf => return receiver

end Scriptlet.Native
