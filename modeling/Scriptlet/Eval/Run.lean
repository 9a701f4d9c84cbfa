import Scriptlet.Eval.Expression
import Scriptlet.Eval.Statement
import Scriptlet.Native.Array
import Scriptlet.Native.Function
import Scriptlet.Native.Global
import Scriptlet.Native.Number
import Scriptlet.Native.Text

/-!
The evaluator as a whole.

The parts are tied together by recursion on fuel: what is nested in a construct is evaluated with
one unit less, and each round of a loop takes a unit of its own. A run that ends does not depend on
how much fuel it was given beyond what it needed.
-/

namespace Scriptlet.Eval

def native (r : Recursion) (op : Native) (receiver : Value) (args : List Value) : Eval Value :=
  match op with
  | .array m => Native.arrayMethod r m receiver args
  | .text m => Native.textMethod r m receiver args
  | .number m => Native.numberMethod m receiver args
  | .function m => Native.functionMethod r m receiver args
  | .object m => Native.objectMethod r m receiver args
  | .global f => Native.globalFunction r f receiver args
  | .error prototype => Native.makeInstance r prototype receiver args
  | .bound target receiver leading => r.call (.function target) receiver (leading ++ args)
  | .host f => Native.hostFunction r f receiver args

/-- Calls a value. -/
def call (r : Recursion) (callee receiver : Value) (args : List Value) : Eval Value := do
  let refuse : Eval Value := do typeFault (.notFunction (← gets (·.heap.inspect callee)))
  match callee with
  | .function ref =>
    match ← gets (·.heap.function? ref) with
    | some f =>
      match f.callable with
      | .closure fn handle realm => callClosure r ref f.label fn handle.scope realm receiver args
      | .native _ op => native r op receiver args
    | none => refuse
  | _ => refuse

/-- The evaluator with a given amount of fuel. -/
def recursion : Nat → Recursion
  | 0 =>
    { fuel := 0
      expr := fun _ _ => exhausted
      stmt := fun _ _ => exhausted
      bind := fun _ _ _ _ => exhausted
      call := fun _ _ _ => exhausted
      body := fun _ _ => exhausted }
  | fuel + 1 =>
    { fuel := fuel + 1
      expr := fun e env s => expression (recursion fuel) e env s
      stmt := fun st env s => statement (recursion fuel) st env s
      bind := fun mode p v env s => bindPattern (recursion fuel) mode p v env s
      call := fun f receiver args s => call (recursion fuel) f receiver args s
      body := fun fn env s => functionBody (recursion fuel) fn env s }

/-- Runs a program in the root scope, and answers the value that it ends with. -/
def program (fuel : Nat) (p : Program) : Eval Value := do
  match ← statements (recursion fuel) p.body Arena.root with
  | .normal v | .return_ v => return v
  | .break_ | .continue_ => return .undefined

end Scriptlet.Eval
