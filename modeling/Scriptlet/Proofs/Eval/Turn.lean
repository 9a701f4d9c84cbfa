import Scriptlet.Eval.Operator
import Scriptlet.Proofs.Eval.Monad

/-!
The order in which an operator converts its operands.

An operator asks each operand for a primitive value, a number or a key, or takes it as it is. Only
these conversions run script code, and each calls nothing but the methods of its own operand. Main
statement: `operands_inTurn`, by which one operand is converted after the other. The left one goes
first, but for `>` and `<=`, which convert the right one first.
-/

namespace Scriptlet.Eval

variable {α : Type} {v : Value} {op : BinaryOp} {left right : Value}

/-! ### Conversions -/

/-- What an operator makes of an operand before it goes to work. -/
inductive Demand where
  | asIs
  | primitive
  | number
  | key
  deriving DecidableEq, Repr

/-- An operand with what is made of it. -/
structure Conversion where
  operand : Value
  demand : Demand

def Conversion.run (c : Conversion) (r : Recursion) : Eval Value :=
  match c.demand with
  | .asIs => return c.operand
  | .primitive => toPrimitive r .number c.operand
  | .number => return .number (← toNumber r c.operand)
  | .key => return .string (← toKey r c.operand)

/-- What equality makes of an operand that meets another one. -/
def demandBeside (other : Value) : Demand :=
  if invitesConversion other then .primitive else .asIs

/-- What an operator makes of its left and of its right operand. -/
def demands (op : BinaryOp) (left right : Value) : Demand × Demand :=
  match op with
  | .arith .add => (.primitive, .primitive)
  | .arith _ => (.number, .number)
  | .equal | .notEqual => (demandBeside right, demandBeside left)
  | .less | .lessEqual | .greater | .greaterEqual => (.primitive, .primitive)
  | .in_ => (.key, .asIs)
  | .strictEqual | .strictNotEqual | .instanceOf => (.asIs, .asIs)

/-- Whether an operator converts its right operand first. -/
def rightFirst : BinaryOp → Bool
  | .greater | .lessEqual => true
  | _ => false

/-- The two conversions of an operator, in the order in which it does them. -/
def turns (op : BinaryOp) (left right : Value) : Conversion × Conversion :=
  let first : Conversion := ⟨left, (demands op left right).1⟩
  let second : Conversion := ⟨right, (demands op left right).2⟩
  if rightFirst op then (second, first) else (first, second)

/-- What an operator does with its converted operands. -/
def finish (op : BinaryOp) (a b : Value) : Eval Value :=
  match op with
  | .arith .add => addPrimitives a b
  | .arith op => gets fun s => .number (arithmetic op (s.heap.number a) (s.heap.number b))
  | .equal => return .boolean (looseEqualsPrimitive a b)
  | .notEqual => return .boolean (!looseEqualsPrimitive a b)
  | .strictEqual => return .boolean (a.strictEquals b)
  | .strictNotEqual => return .boolean (!a.strictEquals b)
  | .less => gets fun s => .boolean (primitiveLess? s.heap a b == some true)
  | .greater => gets fun s => .boolean (primitiveLess? s.heap b a == some true)
  | .lessEqual => gets fun s => .boolean (primitiveLess? s.heap b a == some false)
  | .greaterEqual => gets fun s => .boolean (primitiveLess? s.heap a b == some false)
  | .in_ => do return .boolean (← hasProperty b (← gets (·.heap.text a)))
  | .instanceOf => return .boolean (← instanceOf a b)

/-! ### Script code -/

/-- Two ways to go on from which calls on `v` come out alike. -/
def AlikeOn (v : Value) (r r' : Recursion) : Prop :=
  ∀ f args, r.call f v args = r'.call f v args

/-- A computation in which script code runs by calls on `v` only. -/
def CallsOnlyOn (v : Value) (m : Recursion → Eval α) : Prop :=
  ∀ r r', AlikeOn v r r' → m r = m r'

theorem askMethods_alike {r r' : Recursion} (alike : AlikeOn v r r') (names : List String) :
    askMethods r v names = askMethods r' v names := by
  induction names with
  | nil => rfl
  | cons name rest ih => simp only [askMethods, alike _ _, ih]

theorem toPrimitive_alike {r r' : Recursion} (alike : AlikeOn v r r') (preference : Preference) :
    toPrimitive r preference v = toPrimitive r' preference v := by
  cases v with
  | object | function => exact askMethods_alike alike _
  | _ => rfl

theorem toNumber_alike {r r' : Recursion} (alike : AlikeOn v r r') :
    toNumber r v = toNumber r' v := by
  cases v with
  | object | function => simp only [toNumber, toPrimitive_alike alike]
  | _ => rfl

theorem toKey_alike {r r' : Recursion} (alike : AlikeOn v r r') : toKey r v = toKey r' v := by
  cases v with
  | object | function => simp only [toKey, toText, toPrimitive_alike alike]
  | _ => rfl

/-- A conversion calls nothing but methods of its operand. -/
theorem Conversion.callsOnlyOn (c : Conversion) : CallsOnlyOn c.operand c.run := by
  intro r r' alike
  obtain ⟨v, demand⟩ := c
  cases demand with
  | asIs => rfl
  | primitive => exact toPrimitive_alike alike .number
  | number => simp only [run, toNumber_alike alike]
  | key => simp only [run, toKey_alike alike]

/-! ### Order -/

/-- A computation does one conversion, then another one, and then runs no script code any more. If
the first conversion does not succeed, that is how the computation ends, whatever the other operand
would do. -/
structure InTurn (first second : Conversion) (m : Recursion → Eval Value) : Prop where
  splits : ∃ rest : Value → Value → Eval Value, ∀ r, m r = do
    let a ← first.run r
    let b ← second.run r
    rest a b
  first_calls : CallsOnlyOn first.operand first.run
  second_calls : CallsOnlyOn second.operand second.run
  fault : ∀ {r r' s e t}, first.run r s = .fault e t → AlikeOn first.operand r r' →
    m r' s = .fault e t
  exhausted : ∀ {r r' s t}, first.run r s = .exhausted t → AlikeOn first.operand r r' →
    m r' s = .exhausted t

theorem InTurn.of_splits {first second : Conversion} {m : Recursion → Eval Value}
    (rest : Value → Value → Eval Value)
    (splits : ∀ r, m r = do let a ← first.run r; let b ← second.run r; rest a b) :
    InTurn first second m where
  splits := ⟨rest, splits⟩
  first_calls := first.callsOnlyOn
  second_calls := second.callsOnlyOn
  fault := by
    intro r r' s e t failed alike
    rw [first.callsOnlyOn r r' alike] at failed
    rw [splits, bind_of_fault failed]
  exhausted := by
    intro r r' s t stopped alike
    rw [first.callsOnlyOn r r' alike] at stopped
    rw [splits, bind_of_exhausted stopped]

/-- All arithmetic but sums works on numbers. -/
theorem arith_eq (r : Recursion) {op : ArithOp} (plain : op ≠ .add) (left right : Value) :
    arith r op left right = (do
      let p ← (⟨left, .number⟩ : Conversion).run r
      let q ← (⟨right, .number⟩ : Conversion).run r
      finish (.arith op) p q) := by
  cases op with
  | add => exact absurd rfl plain
  | _ =>
    simp only [arith, Conversion.run, bind_assoc, pure_bind]
    rfl

theorem looseEquals_eq (r : Recursion) (a b : Value) :
    looseEquals r a b = do
      let p ← (⟨a, demandBeside b⟩ : Conversion).run r
      let q ← (⟨b, demandBeside a⟩ : Conversion).run r
      return looseEqualsPrimitive p q := by
  cases a <;> cases b <;> rfl

/-- What is asked of a comparison is asked of the primitive values. -/
theorem less?_bind (r : Recursion) (wanted : Bool) (a b : Value) :
    (do return .boolean ((← less? r a b) == some wanted) : Eval Value) = (do
      let p ← (⟨a, .primitive⟩ : Conversion).run r
      let q ← (⟨b, .primitive⟩ : Conversion).run r
      gets fun s => .boolean (primitiveLess? s.heap p q == some wanted)) := by
  simp only [less?, bind_assoc]
  rfl

theorem hasProperty_bind (r : Recursion) (key v : Value) :
    (do return .boolean (← hasProperty v (← toKey r key)) : Eval Value) = (do
      let p ← (⟨key, .key⟩ : Conversion).run r
      let q ← (⟨v, .asIs⟩ : Conversion).run r
      finish .in_ p q) := by
  simp only [Conversion.run, bind_assoc, pure_bind]
  rfl

theorem binary_eq (r : Recursion) (op : BinaryOp) (left right : Value) :
    binary r op left right = (do
      let p ← (turns op left right).1.run r
      let q ← (turns op left right).2.run r
      if rightFirst op then finish op q p else finish op p q) := by
  cases op with
  | arith op =>
    by_cases plain : op = .add
    · subst plain
      rfl
    · refine (arith_eq r plain left right).trans ?_
      cases op with
      | add => exact absurd rfl plain
      | _ => rfl
  | equal | notEqual =>
    simp only [binary, looseEquals_eq, bind_assoc]
    rfl
  | less => exact less?_bind r true left right
  | greater => exact less?_bind r true right left
  | lessEqual => exact less?_bind r false right left
  | greaterEqual => exact less?_bind r false left right
  | in_ => exact hasProperty_bind r left right
  | strictEqual | strictNotEqual | instanceOf => rfl

theorem operands_turns (op : BinaryOp) (left right : Value) :
    ((turns op left right).1.operand, (turns op left right).2.operand) =
      if op = .greater ∨ op = .lessEqual then (right, left) else (left, right) := by
  cases op <;> rfl

/-- Every operator converts its operands in turn: all script code that the first conversion runs has
run before the second one starts, and if the first one fails, there is no second one. All operators
but `>` and `<=` convert their left operand first. -/
theorem operands_inTurn (op : BinaryOp) (left right : Value) :
    ((turns op left right).1.operand, (turns op left right).2.operand) =
      (if op = .greater ∨ op = .lessEqual then (right, left) else (left, right)) ∧
    InTurn (turns op left right).1 (turns op left right).2 (binary · op left right) := by
  refine ⟨operands_turns op left right, ?_⟩
  exact .of_splits (fun p q => if rightFirst op then finish op q p else finish op p q)
    fun r => binary_eq r op left right

end Scriptlet.Eval
