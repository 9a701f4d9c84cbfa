import Scriptlet.Eval.Operator
import Scriptlet.Proofs.Eval.Monad

/-!
Equality with conversion.

Of a container and a primitive value that meet, the container is converted, and primitive values are
compared by rules that look at both. Main statement: `looseEquals_symmetric`, by which the operands
can be exchanged, what is strictly equal is equal, and converted values are compared like any
others.
-/

namespace Scriptlet

variable {a b v : Value} {r : Recursion} {s t : State}

theorem compare_comm (u v : Float.Model.UnpackedFloat) :
    u.compare v = (v.compare u).map Ordering.swap := by
  have sizes (e e' : Int) (m m' : Nat) : (compare e e').then (compare m m') =
      ((compare e' e).then (compare m' m)).swap := by
    rw [Ordering.swap_then, ← Std.OrientedCmp.eq_swap, ← Std.OrientedCmp.eq_swap]
  cases u with
  | finite s m e =>
    cases v with
    | finite s' m' e' =>
      cases s <;> cases s'
      · exact congrArg some (congrArg Ordering.swap (sizes e e' m m'))
      · rfl
      · rfl
      · exact congrArg some (sizes e e' m m')
    | infinity s' => cases s <;> cases s' <;> rfl
    | zero => cases s <;> rfl
    | notANumber => cases s <;> rfl
  | infinity s =>
    cases v with
    | infinity s' | finite s' => cases s <;> cases s' <;> rfl
    | _ => cases s <;> rfl
  | zero =>
    cases v with
    | infinity s' | finite s' => cases s' <;> rfl
    | _ => rfl
  | notANumber =>
    cases v with
    | infinity s' | finite s' => cases s' <;> rfl
    | _ => rfl

/-- Numbers are equal either way around, and NaN is not. -/
theorem float_beq_comm (x y : Float) : (x == y) = (y == x) := by
  change (x.toModel.unpack.compare y.toModel.unpack == some .eq) =
    (y.toModel.unpack.compare x.toModel.unpack == some .eq)
  rw [compare_comm]
  cases y.toModel.unpack.compare x.toModel.unpack with
  | none => rfl
  | some order => cases order <;> rfl

theorem Value.strictEquals_comm (a b : Value) : a.strictEquals b = b.strictEquals a := by
  cases a <;> cases b
  case number.number x y => exact float_beq_comm x y
  all_goals first | rfl | exact BEq.comm

namespace Eval

/-! ### Primitive values -/

theorem looseEqualsPrimitive_comm (a b : Value) :
    looseEqualsPrimitive a b = looseEqualsPrimitive b a := by
  unfold looseEqualsPrimitive
  rw [Bool.or_comm, Bool.and_comm]
  split
  · rfl
  · generalize withoutBoolean a = x
    generalize withoutBoolean b = y
    cases x <;> cases y
    case number.string x s => exact float_beq_comm ..
    case string.number s x => exact float_beq_comm ..
    all_goals exact Value.strictEquals_comm _ _

/-- Values that are strictly equal are equal, for zero and one equal themselves. -/
theorem looseEqualsPrimitive_of_strictEquals (same : a.strictEquals b = true) :
    looseEqualsPrimitive a b = true := by
  cases a <;> cases b <;> try cases same
  case boolean.boolean p q =>
    obtain rfl : p = q := by simpa [Value.strictEquals] using same
    cases p <;> decide
  all_goals first | rfl | exact same

/-! ### Containers -/

theorem looseEquals_eq_primitive (left : a.isContainer = false) (right : b.isContainer = false) :
    looseEquals r a b = pure (looseEqualsPrimitive a b) := by
  unfold looseEquals
  simp only [left, right, Bool.and_false, Bool.false_and]
  rfl

theorem not_invites_of_isContainer (container : v.isContainer = true) :
    invitesConversion v = false := by
  cases v <;> first | rfl | cases container

theorem looseEquals_comm (r : Recursion) (a b : Value) : looseEquals r a b = looseEquals r b a := by
  unfold looseEquals
  by_cases left : (a.isContainer && invitesConversion b) = true
  · have apart : (b.isContainer && invitesConversion a) = false := by
      rw [not_invites_of_isContainer (Bool.and_eq_true_iff.1 left).1, Bool.and_false]
    simp only [left, apart, Bool.and_comm (invitesConversion b), if_true,
      looseEqualsPrimitive_comm b]
    rfl
  · by_cases right : (b.isContainer && invitesConversion a) = true
    · simp only [left, right, Bool.and_comm (invitesConversion a), if_true,
        looseEqualsPrimitive_comm a]
      rfl
    · simp only [left, right, Bool.and_comm (invitesConversion _), looseEqualsPrimitive_comm b]
      rfl

/-- Containers are not converted to compare them with each other. -/
theorem looseEquals_eq_strict (left : a.isContainer = true) (right : b.isContainer = true) :
    looseEquals r a b = pure (a.strictEquals b) := by
  cases a <;> cases left <;> cases b <;> cases right <;> rfl

theorem looseEquals_of_strictEquals (same : a.strictEquals b = true) :
    looseEquals r a b s = .ok true s := by
  have kind : b.isContainer = a.isContainer := by
    cases a <;> cases b <;> first | rfl | cases same
  cases container : a.isContainer with
  | true =>
    rw [looseEquals_eq_strict container (kind.trans container), same]
    rfl
  | false =>
    rw [looseEquals_eq_primitive container (kind.trans container),
      looseEqualsPrimitive_of_strictEquals same]
    rfl

/-! ### Rules -/

/-- The rules of equality, of which the first one that fits is taken. A truth value is compared as a
number and a container as its primitive value, each once `again`. -/
def looseRules (r : Recursion) (again : Value → Value → Eval Bool) (a b : Value) : Eval Bool :=
  if a.isNullish || b.isNullish then return a.isNullish && b.isNullish
  else
    match a, b with
    | .number x, .string s => return x == Number.ofText s
    | .string s, .number x => return Number.ofText s == x
    | .boolean _, _ => again (withoutBoolean a) b
    | _, .boolean _ => again a (withoutBoolean b)
    | _, _ =>
      if a.isContainer && invitesConversion b then do again (← toPrimitive r .number a) b
      else if invitesConversion a && b.isContainer then do again a (← toPrimitive r .number b)
      else return a.strictEquals b

theorem askMethods_ok {names : List String} (done : askMethods r v names s = .ok a t) :
    a.isContainer = false := by
  induction names generalizing s with
  | nil =>
    cases done
    rfl
  | cons name rest ih =>
    obtain ⟨method, u, -, done⟩ := bind_ok done
    split at done
    · obtain ⟨result, w, -, done⟩ := bind_ok done
      split at done
      next => exact ih done
      next plain =>
        cases done
        exact Bool.eq_false_iff.2 plain
    · exact ih done

theorem toPrimitive_ok {preference : Preference} (done : toPrimitive r preference v s = .ok a t) :
    a.isContainer = false := by
  cases v with
  | object | function => exact askMethods_ok done
  | _ =>
    cases done
    rfl

/-- A container is compared as its primitive value, which is not converted any more. -/
theorem looseEquals_container (container : a.isContainer = true)
    (invites : invitesConversion b = true) :
    looseEquals r a b = (do looseEquals r (← toPrimitive r .number a) b) := by
  have plain : b.isContainer = false := by
    cases b <;> first | rfl | cases invites
  have converts :
      looseEquals r a b = (do return looseEqualsPrimitive (← toPrimitive r .number a) b) := by
    unfold looseEquals
    simp only [container, invites, Bool.and_self, if_true]
  rw [converts]
  funext s
  cases done : toPrimitive r .number a s with
  | ok p t =>
    rw [bind_of_ok done, bind_of_ok done, looseEquals_eq_primitive (toPrimitive_ok done) plain]
  | fault e t => rw [bind_of_fault done, bind_of_fault done]
  | exhausted t => rw [bind_of_exhausted done, bind_of_exhausted done]

theorem looseEquals_container_right (invites : invitesConversion a = true)
    (container : b.isContainer = true) :
    looseEquals r a b = (do looseEquals r a (← toPrimitive r .number b)) := by
  rw [looseEquals_comm, looseEquals_container container invites]
  simp only [looseEquals_comm r _ a]

/-- By one rule at a time, equality comes out as it is defined. -/
theorem looseEquals_eq_rules (r : Recursion) (a b : Value) :
    looseEquals r a b = looseRules r (looseEquals r) a b := by
  unfold looseRules
  cases a <;> cases b <;> try rfl
  case object.number | object.string | function.number | function.string =>
    exact looseEquals_container rfl rfl
  case number.object | number.function | string.object | string.function =>
    exact looseEquals_container_right rfl rfl

end Eval

open Eval

/-- Equality with conversion does not depend on the order of its operands: whatever script code
converts them, it ends alike and in the same state. It holds of all that is strictly equal, without
running anything. It follows its rules, by which what a conversion gives is compared like any other
value. -/
theorem looseEquals_symmetric (r : Recursion) (a b : Value) (s : State) :
    looseEquals r a b s = looseEquals r b a s ∧
    (a.strictEquals b = true → looseEquals r a b s = .ok true s) ∧
    looseEquals r a b = looseRules r (looseEquals r) a b :=
  ⟨congrFun (looseEquals_comm r a b) s, looseEquals_of_strictEquals, looseEquals_eq_rules r a b⟩

end Scriptlet
