import Scriptlet.Eval.Convert
import Scriptlet.Text.Units

/-!
Operators.
-/

namespace Scriptlet.Eval

/-- The arithmetic of numbers. -/
def arithmetic (op : ArithOp) (a b : Float) : Float :=
  let shift : Nat := Number.toUint32 b % 32
  let words (f : Int32 → Int32 → Int32) : Float :=
    Number.ofInt32 (f (Number.toInt32 a) (Number.toInt32 b))
  match op with
  | .add => a + b
  | .subtract => a - b
  | .multiply => a * b
  | .divide => a / b
  | .modulo => Number.remainder a b
  | .exponent => Number.power a b
  | .bitAnd => words (· &&& ·)
  | .bitOr => words (· ||| ·)
  | .bitXor => words (· ^^^ ·)
  | .shiftLeft => Number.ofInt32 (Number.toInt32 a <<< Int32.ofNat shift)
  | .shiftRight => Number.ofInt32 (Number.toInt32 a >>> Int32.ofNat shift)
  | .unsignedShiftRight => Float.ofNat (Number.toUint32 a >>> shift)

/-- Two texts one after the other. -/
def appendTexts (a b : String) : Eval Value :=
  if a.utf8ByteSize + b.utf8ByteSize > Value.maxTextLength then rangeFault .textLength
  else return .string (a ++ b)

/-- A sum of primitive values: texts are joined, all else is added. -/
def addPrimitives (a b : Value) : Eval Value := do
  let h ← gets (·.heap)
  match a, b with
  | .string _, _ | _, .string _ => appendTexts (h.text a) (h.text b)
  | _, _ => return .number (h.number a + h.number b)

def arith (r : Recursion) (op : ArithOp) (left right : Value) : Eval Value := do
  match op with
  | .add =>
    let a ← toPrimitive r .number left
    let b ← toPrimitive r .number right
    addPrimitives a b
  | _ =>
    let a ← toNumber r left
    let b ← toNumber r right
    return .number (arithmetic op a b)

/-- Whether a primitive value comes before another; no answer if one of them is no number. -/
def primitiveLess? (h : Heap) (a b : Value) : Option Bool :=
  match a, b with
  | .string s, .string t => some (Text.compareUnits s t == .lt)
  | _, _ =>
    let x := h.number a
    let y := h.number b
    if x.isNaN || y.isNaN then none else some (x < y)

/-- Whether the first value comes before the second; `left` is converted first. -/
def less? (r : Recursion) (left right : Value) : Eval (Option Bool) := do
  let a ← toPrimitive r .number left
  let b ← toPrimitive r .number right
  gets fun s => primitiveLess? s.heap a b

/-- Truth values as numbers. -/
def withoutBoolean : Value → Value
  | .boolean b => .number (if b then 1.0 else 0.0)
  | v => v

/-- Equality with conversion of primitive values. -/
def looseEqualsPrimitive (a b : Value) : Bool :=
  if a.isNullish || b.isNullish then a.isNullish && b.isNullish
  else
    match withoutBoolean a, withoutBoolean b with
    | .number x, .string s => x == Number.ofText s
    | .string s, .number x => Number.ofText s == x
    | a, b => a.strictEquals b

/-- Whether a container that meets the value is converted before they are compared. -/
def invitesConversion : Value → Bool
  | .boolean _ | .number _ | .string _ => true
  | _ => false

/-- Equality with conversion. -/
def looseEquals (r : Recursion) (a b : Value) : Eval Bool := do
  if a.isContainer && invitesConversion b then
    return looseEqualsPrimitive (← toPrimitive r .number a) b
  else if invitesConversion a && b.isContainer then
    return looseEqualsPrimitive a (← toPrimitive r .number b)
  else return looseEqualsPrimitive a b

/-- Whether a value inherits from what the instances of a function inherit from. -/
def instanceOf (v constructor : Value) : Eval Bool := do
  match constructor with
  | .function f =>
    match ← functionPrototype f, v with
    | .object p, .object o => gets fun s => s.heap.descendsFrom p s.heap.objects.size o
    | _, _ => return false
  | _ => typeFault .notCallableRight

def binary (r : Recursion) (op : BinaryOp) (left right : Value) : Eval Value := do
  match op with
  | .arith op => arith r op left right
  | .equal => return .boolean (← looseEquals r left right)
  | .notEqual => return .boolean (!(← looseEquals r left right))
  | .strictEqual => return .boolean (left.strictEquals right)
  | .strictNotEqual => return .boolean (!left.strictEquals right)
  | .less => return .boolean ((← less? r left right) == some true)
  | .greater => return .boolean ((← less? r right left) == some true)
  | .lessEqual => return .boolean ((← less? r right left) == some false)
  | .greaterEqual => return .boolean ((← less? r left right) == some false)
  | .in_ => return .boolean (← hasProperty right (← toKey r left))
  | .instanceOf => return .boolean (← instanceOf left right)

def unary (r : Recursion) (op : UnaryOp) (v : Value) : Eval Value := do
  match op with
  | .minus => return .number (Number.negate (← toNumber r v))
  | .plus => return .number (← toNumber r v)
  | .not => return .boolean (!v.truthy)
  | .bitNot => return .number (Number.ofInt32 (~~~Number.toInt32 (← toNumber r v)))
  | .typeOf => return .string v.typeOf
  | .void => return .undefined
  | .delete => return .boolean true

/-- Whether a logical operator ends with its left operand. -/
def shortCircuits (op : LogicalOp) (left : Value) : Bool :=
  match op with
  | .and => !left.truthy
  | .or => left.truthy
  | .nullish => !left.isNullish

end Scriptlet.Eval
