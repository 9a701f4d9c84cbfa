import Scriptlet.ParseError
import Scriptlet.Value.Text

/-!
What can go wrong when a program runs.

A fault has a cause and, once it has passed a construct of the program, the place of that construct.
-/

namespace Scriptlet

/-- A value of the wrong type for what is done with it. -/
inductive TypeFault where
  | notFunction (what : String)
  | notFunctionIn (method : String)
  | notConstructor (what : String)
  | foreignFunction (label : String)
  | cannotRead (what key : String)
  | cannotSet (what key : String)
  | cannotDelete (key : String)
  | cannotSearch (key what : String)
  | notCallableRight
  | cannotDestructure (what : String)
  | notIterable (what : String)
  | circularJson
  | notArray (method : String)
  | emptyReduce
  | badComparator
  | textOfNothing
  | notNumber
  | notArgumentList
  | notBindable
  | nullishArgument (method what : String)
  deriving DecidableEq, Repr

def TypeFault.message : TypeFault → String
  | .notFunction what => what ++ " is not a function"
  | .notFunctionIn method => "undefined is not a function (in Array.prototype." ++ method ++ ")"
  | .notConstructor what => what ++ " is not a constructor"
  | .foreignFunction label => label ++ " was created by a different interpreter"
  | .cannotRead what key => "Cannot read properties of " ++ what ++ " (reading '" ++ key ++ "')"
  | .cannotSet what key => "Cannot set properties of " ++ what ++ " (setting '" ++ key ++ "')"
  | .cannotDelete key => "Cannot convert undefined or null to object (deleting '" ++ key ++ "')"
  | .cannotSearch key what =>
    "Cannot use 'in' operator to search for '" ++ key ++ "' in " ++ what
  | .notCallableRight => "Right-hand side of 'instanceof' is not callable"
  | .cannotDestructure what => "Cannot destructure '" ++ what ++ "' as it is " ++ what ++ "."
  | .notIterable what => what ++ " is not iterable"
  | .circularJson => "Converting circular structure to JSON"
  | .notArray method => "Array.prototype." ++ method ++ " called on a non-array"
  | .emptyReduce => "Reduce of empty array with no initial value"
  | .badComparator => "The comparison function must be either a function or undefined"
  | .textOfNothing => "String.prototype method called on null or undefined"
  | .notNumber => "Number.prototype method called on a non-number"
  | .notArgumentList => "CreateListFromArrayLike called on non-object"
  | .notBindable => "Bind must be called on a function"
  | .nullishArgument method what => "Object." ++ method ++ " called on " ++ what

/-- A quantity out of its range. -/
inductive RangeFault where
  | arrayLength
  | textLength
  | callDepth
  | repeatCount (count : String)
  | fixedDigits
  | radix
  deriving DecidableEq, Repr

def RangeFault.message : RangeFault → String
  | .arrayLength => "Invalid array length"
  | .textLength => "Invalid string length"
  | .callDepth => "Maximum call stack size exceeded"
  | .repeatCount count => "Invalid count value: " ++ count
  | .fixedDigits => "toFixed() digits argument must be between 0 and 100"
  | .radix => "toString() radix must be between 2 and 36"

inductive Cause where
  | unbound (name : String)
  | redeclared (name : String)
  | constantAssigned (name : String)
  | type (fault : TypeFault)
  | range (fault : RangeFault)
  /-- A construct that cannot be run. -/
  | unsupported (label : String)
  | thrown (value : Value)
  | parse (error : ParseError)
  deriving Repr

/-- What a script sees of a cause. -/
inductive FaultKind where
  | reference
  | redeclaration
  | type
  | range
  | thrown
  | internal
  deriving DecidableEq, Repr

/-- A cause, and the span of the innermost construct that it passed. -/
structure Fault where
  cause : Cause
  span : Option Span := none
  deriving Repr

/-- The global that makes error objects of a kind. -/
def FaultKind.constructorName : FaultKind → String
  | .reference => "ReferenceError"
  | .redeclaration => "SyntaxError"
  | .type => "TypeError"
  | .range => "RangeError"
  | .thrown | .internal => "Error"

namespace Cause

def kind : Cause → FaultKind
  | .unbound _ => .reference
  | .redeclared _ => .redeclaration
  | .constantAssigned _ | .type _ => .type
  | .range _ => .range
  | .thrown _ => .thrown
  | .unsupported _ | .parse _ => .internal

/-- The value that a script has thrown. -/
def thrown? : Cause → Option Value
  | .thrown value => some value
  | _ => none

/-- The message that an error object made from the cause carries. -/
def message (h : Heap) : Cause → String
  | .unbound name => name ++ " is not defined"
  | .redeclared name => "Identifier '" ++ name ++ "' has already been declared"
  | .constantAssigned _ => "Assignment to constant variable."
  | .type fault => fault.message
  | .range fault => fault.message
  | .unsupported label => "Unsupported node: " ++ label
  | .thrown value => h.describe value
  | .parse error => error.cause.message

/-- The message with which a run that ends by the cause is reported. -/
def headline (h : Heap) (c : Cause) : String :=
  match c with
  | .thrown value => "Uncaught " ++ h.describe value
  | .unsupported _ | .parse _ => c.message h
  | _ => c.kind.constructorName ++ ": " ++ c.message h

/-- The code under which the cause is documented. -/
def code : Cause → String
  | .unbound _ => "runjs::runtime::reference_error"
  | .redeclared _ => "runjs::runtime::duplicate_declaration"
  | .constantAssigned _ => "runjs::runtime::assignment_to_constant"
  | .type _ => "runjs::runtime::type_error"
  | .range _ => "runjs::runtime::range_error"
  | .unsupported _ => "runjs::runtime::unsupported_node"
  | .thrown _ => "runjs::runtime::uncaught"
  | .parse error => error.cause.code

/-- Advice to the author of the program. -/
def help? : Cause → Option String
  | .unbound _ => some "Declare the variable with var, let or const before using it"
  | .redeclared _ => some "let and const bindings can only be declared once per scope"
  | .unsupported _ => some "The syntax tree contains a construct the evaluator cannot execute"
  | .parse error => some error.cause.help
  | _ => none

end Cause

namespace Fault

/-- Whether a script can catch the fault. -/
def catchable (f : Fault) : Bool :=
  f.cause.kind != .internal

/-- A fault at a place, unless it has one already. -/
def located (f : Fault) (span : Span) : Fault :=
  match f.cause, f.span with
  | .parse _, _ => f
  | _, some _ => f
  | _, none => { f with span := some span }

@[simp]
theorem cause_located (f : Fault) (span : Span) : (f.located span).cause = f.cause := by
  unfold located
  split
  · rfl
  · rfl
  · rfl

end Fault

end Scriptlet
