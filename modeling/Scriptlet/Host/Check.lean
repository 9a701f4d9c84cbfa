import Scriptlet.Host.Session
import Scriptlet.Json.Writer

/-!
Checks of what a text evaluates to.
-/

namespace Scriptlet

/-- Why a check does not hold. -/
inductive Complaint where
  | mismatch (code expected actual : String)
  | unexpectedSuccess (code value : String)
  deriving DecidableEq, Repr

def Complaint.message : Complaint → String
  | .mismatch code expected actual =>
    "Assertion failed for `" ++ code ++ "`: expected " ++ expected ++ ", but got " ++ actual
  | .unexpectedSuccess code value =>
    "Expected `" ++ code ++ "` to fail, but it evaluated to " ++ value

/-- What a text is expected to evaluate to. -/
inductive Expectation where
  | number (value : Float)
  | string (value : String)
  | boolean (value : Bool)
  | undefined
  deriving Repr

namespace Expectation

def met : Expectation → Value → Bool
  | .number x, .number y => y == x || (x.isNaN && y.isNaN)
  | .string s, .string t => t == s
  | .boolean a, .boolean b => b == a
  | .undefined, .undefined => true
  | _, _ => false

def text : Expectation → String
  | .number x => Number.reportLayout.render x
  | .string s => Text.quoted s
  | .boolean b => if b then "true" else "false"
  | .undefined => "undefined"

end Expectation

namespace Eval

/-- Checks the value of a text. -/
def expectValue (fuel : Nat) (options : ParseOptions) (code : String) (e : Expectation) :
    Eval (Option Complaint) := do
  let v ← evaluate fuel options code
  if e.met v then return none
  else return some (.mismatch code e.text (← gets (·.heap.inspect v)))

def expectJson (code : String) (v : Value) (expected : Json) : Eval (Option Complaint) := do
  match ← gets (·.heap.json v) with
  | .error .circular => typeFault .circularJson
  | .ok actual =>
    if actual.same expected then return none
    else return some (.mismatch code expected.compact actual.compact)

/-- Checks the JSON of the value of a text. -/
def expectValueJson (fuel : Nat) (options : ParseOptions) (code : String) (expected : Json) :
    Eval (Option Complaint) := do
  expectJson code (← evaluate fuel options code) expected

/-- Runs a text and checks the JSON of the host's value. -/
def expectHostJson (fuel : Nat) (options : ParseOptions) (code : String) (expected : Json) :
    Eval (Option Complaint) := do
  discard (evaluate fuel options code)
  expectJson code (← hostValue) expected

/-- The fault with which a text fails, or the complaint that it does not. -/
def faultOf (fuel : Nat) (options : ParseOptions) (code : String) :
    Eval (Except Complaint Fault) := fun s =>
  match evaluate fuel options code s with
  | .ok v s => .ok (.error (.unexpectedSuccess code (s.heap.inspect v))) s
  | .fault f s => .ok (.ok f) s
  | .exhausted s => .exhausted s

/-- A fault as the text of an error. -/
def faultText (h : Heap) (f : Fault) : String :=
  match f.cause with
  | .thrown v => h.describe v
  | c => c.kind.constructorName ++ ": " ++ c.message h

/-- Checks the text of the error with which a text fails. -/
def expectFault (fuel : Nat) (options : ParseOptions) (code expected : String) :
    Eval (Option Complaint) := do
  match ← faultOf fuel options code with
  | .error c => return some c
  | .ok f =>
    let actual ← gets fun s => faultText s.heap f
    if actual == expected then return none else return some (.mismatch code expected actual)

end Eval

end Scriptlet
