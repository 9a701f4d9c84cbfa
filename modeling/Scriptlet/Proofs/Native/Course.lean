import Mathlib.Data.List.Basic
import Scriptlet.Native.Array
import Scriptlet.Proofs.Eval.Monad

/-!
Going through an array with a callback.

A method calls its callback on the elements at one place after the other, each as it finds it by
then, up to the size that the array had at first. Main statements: `Plan.carry_course`, which says
which calls are made and how they end, whatever they do to the array, and `Plan.carry_eq_listwise`,
by which an array that they leave alone is gone through as a list.
-/

namespace Scriptlet.Native

open Eval

/-- A call of a callback. -/
structure Visit where
  element : Value
  place : Nat
  result : Value

/-- How a method calls a callback. -/
structure Calling where
  /-- The first place that is visited. -/
  place : Nat := 0
  /-- What stands for the last result when there was no call. -/
  first : Value := .undefined
  /-- The call after the last result, on an element and its place. -/
  ask : Value → Value → Nat → Eval Value
  /-- Whether no further call follows on a result. -/
  decides : Value → Bool := fun _ => false

/-- What a method does with a callback. -/
structure Plan extends Calling where
  /-- The answer after a call that decides. -/
  decided : Visit → Value := fun _ => .undefined
  /-- The answer when none did. -/
  complete : List Visit → Eval Value

namespace Calling

variable (p : Calling) (ref : ArrayRef)

def last (visits : List Visit) : Value :=
  (visits.getLast?.map (·.result)).getD p.first

/-- The place that comes after some visits. -/
def next (visits : List Visit) : Nat :=
  p.place + visits.length

/-- The calls that do not decide, one after the other, and the states behind them. Each is on the
element that the array has at the next place by then. -/
inductive Reaches (s : State) : List Visit → State → Prop where
  | start : Reaches s [] s
  | visit {visits : List Visit} {t u : State} {x y : Value} : Reaches s visits t →
      (t.heap.elements ref)[p.next visits]? = some x →
      p.ask (p.last visits) x (p.next visits) t = .ok y u → p.decides y = false →
      Reaches s (visits ++ [⟨x, p.next visits, y⟩]) u

/-- No call changes the array. -/
def Undisturbed (s : State) : Prop :=
  ∀ visits t, p.Reaches ref s visits t → t.heap.elements ref = s.heap.elements ref

variable {p ref} {s t : State} {visits : List Visit}

theorem next_append (p : Calling) (visits : List Visit) (visit : Visit) :
    p.next (visits ++ [visit]) = p.next visits + 1 := by
  rw [next, List.length_append]
  rfl

theorem last_append (p : Calling) (visits : List Visit) (visit : Visit) :
    p.last (visits ++ [visit]) = visit.result := by
  rw [last, List.getLast?_concat]
  rfl

/-- The places are visited in order. -/
theorem Reaches.places (reached : p.Reaches ref s visits t) :
    visits.map (·.place) = List.range' p.place visits.length := by
  induction reached with
  | start => rfl
  | visit _ _ _ _ ih =>
    rw [List.map_append, ih, List.length_append, List.length_singleton, List.range'_concat,
      Nat.one_mul]
    rfl

end Calling

namespace Plan

variable (p : Plan) (ref : ArrayRef)

/-- At most `count` more calls on the elements of an array. -/
def carry (visits : List Visit) : Nat → Eval Value
  | 0 => p.complete visits
  | count + 1 => do
    match ← gets fun s => (s.heap.elements ref)[p.next visits]? with
    | none => p.complete visits
    | some x =>
      let y ← p.ask (p.last visits) x (p.next visits)
      if p.decides y then return p.decided ⟨x, p.next visits, y⟩
      else carry (visits ++ [⟨x, p.next visits, y⟩]) count

/-- More calls on the elements of a list. -/
def listwise (visits : List Visit) : List Value → Eval Value
  | [] => p.complete visits
  | x :: xs => do
    let y ← p.ask (p.last visits) x (p.next visits)
    if p.decides y then return p.decided ⟨x, p.next visits, y⟩
    else listwise (visits ++ [⟨x, p.next visits, y⟩]) xs

/-- How a method ends behind some visits: with no call if it is through or the array has no element
at the next place, and else as the next call has it. -/
inductive Ends (bound : Nat) (visits : List Visit) (s : State) : Outcome Value → Prop where
  | through : p.next visits = bound → Ends bound visits s (p.complete visits s)
  | gone : p.next visits < bound → (s.heap.elements ref)[p.next visits]? = none →
      Ends bound visits s (p.complete visits s)
  | decided {x y : Value} {t : State} : p.next visits < bound →
      (s.heap.elements ref)[p.next visits]? = some x →
      p.ask (p.last visits) x (p.next visits) s = .ok y t → p.decides y = true →
      Ends bound visits s (.ok (p.decided ⟨x, p.next visits, y⟩) t)
  | fault {x : Value} {f : Fault} {t : State} : p.next visits < bound →
      (s.heap.elements ref)[p.next visits]? = some x →
      p.ask (p.last visits) x (p.next visits) s = .fault f t → Ends bound visits s (.fault f t)
  | exhausted {x : Value} {t : State} : p.next visits < bound →
      (s.heap.elements ref)[p.next visits]? = some x →
      p.ask (p.last visits) x (p.next visits) s = .exhausted t → Ends bound visits s (.exhausted t)

/-- The whole course of a method on an array, from a state to an outcome. -/
def Course (bound : Nat) (s : State) (o : Outcome Value) : Prop :=
  ∃ visits t, p.Reaches ref s visits t ∧ visits.map (·.place) = List.range' p.place visits.length ∧
    p.next visits ≤ bound ∧ p.Ends ref bound visits t o

variable {p ref} {s t : State} {visits : List Visit}

theorem carry_succ_of_none (count : Nat) (none : (t.heap.elements ref)[p.next visits]? = none) :
    p.carry ref visits (count + 1) t = p.complete visits t := by
  rw [carry, bind_gets, none]

theorem carry_succ_of_some {x : Value} (count : Nat)
    (there : (t.heap.elements ref)[p.next visits]? = some x) :
    p.carry ref visits (count + 1) t = (p.ask (p.last visits) x (p.next visits) >>= fun y =>
      if p.decides y then return p.decided ⟨x, p.next visits, y⟩
      else p.carry ref (visits ++ [⟨x, p.next visits, y⟩]) count) t := by
  rw [carry, bind_gets, there]

/-- Whatever the calls do, they are on the elements at places below the bound, in order, and end
where there is no element any more. -/
theorem carry_course {bound count : Nat} (reached : p.Reaches ref s visits t)
    (left : p.next visits + count = bound) : p.Course ref bound s (p.carry ref visits count t) := by
  -- A call that does not decide is one more visit, and any other ends the course.
  induction count generalizing visits t with
  | zero => exact ⟨visits, t, reached, reached.places, Nat.le_of_eq left, .through left⟩
  | succ count ih =>
    have below : p.next visits < bound := by omega
    cases there : (t.heap.elements ref)[p.next visits]? with
    | none =>
      rw [carry_succ_of_none count there]
      exact ⟨visits, t, reached, reached.places, Nat.le_of_lt below, .gone below there⟩
    | some x =>
      rw [carry_succ_of_some count there]
      cases asked : p.ask (p.last visits) x (p.next visits) t with
      | fault f u =>
        rw [bind_of_fault asked]
        exact ⟨visits, t, reached, reached.places, Nat.le_of_lt below, .fault below there asked⟩
      | exhausted u =>
        rw [bind_of_exhausted asked]
        exact ⟨visits, t, reached, reached.places, Nat.le_of_lt below, .exhausted below there asked⟩
      | ok y u =>
        rw [bind_of_ok asked]
        cases decides : p.decides y with
        | true =>
          rw [if_pos rfl]
          exact ⟨visits, t, reached, reached.places, Nat.le_of_lt below,
            .decided below there asked decides⟩
        | false =>
          rw [if_neg Bool.false_ne_true]
          exact ih (.visit reached there asked decides) (by rw [p.next_append]; omega)

/-- Going through a list is the only operation that ends and goes on like this. -/
theorem listwise_eq (operation : List Visit → List (Value × Nat) → Eval Value)
    (nil : ∀ visits, operation visits [] = p.complete visits)
    (cons : ∀ visits x rest, operation visits ((x, p.next visits) :: rest) =
      p.ask (p.last visits) x (p.next visits) >>= fun y =>
        if p.decides y then return p.decided ⟨x, p.next visits, y⟩
        else operation (visits ++ [⟨x, p.next visits, y⟩]) rest)
    (visits : List Visit) (xs : List Value) :
    p.listwise visits xs = operation visits (xs.zipIdx (p.next visits)) := by
  induction xs generalizing visits with
  | nil => exact (nil visits).symm
  | cons x xs ih =>
    rw [List.zipIdx_cons, cons, listwise]
    apply bind_congr
    intro y
    rw [ih, p.next_append]

/-- An array that the calls leave alone is gone through as the list of its elements. -/
theorem carry_eq_listwise (undisturbed : p.Undisturbed ref s) {count : Nat}
    (reached : p.Reaches ref s visits t) :
    p.carry ref visits count t =
      p.listwise visits (((s.heap.elements ref).toList.drop (p.next visits)).take count) t := by
  induction count generalizing visits t with
  | zero =>
    rw [List.take_zero]
    rfl
  | succ count ih =>
    have same := undisturbed visits t reached
    cases there : (t.heap.elements ref)[p.next visits]? with
    | none =>
      have through : (s.heap.elements ref).toList.length ≤ p.next visits := by
        rw [same] at there
        exact Array.getElem?_eq_none_iff.1 there
      rw [carry_succ_of_none count there, List.drop_of_length_le through, List.take_nil]
      rfl
    | some x =>
      obtain ⟨below, here⟩ : ∃ below : p.next visits < (s.heap.elements ref).toList.length,
          (s.heap.elements ref).toList[p.next visits] = x := by
        rw [same] at there
        exact List.getElem?_eq_some_iff.1 (Array.getElem?_toList.trans there)
      rw [carry_succ_of_some count there, List.drop_eq_getElem_cons below, List.take_succ_cons,
        here, listwise]
      apply bind_congr_of_ok
      intro y u asked
      cases decides : p.decides y with
      | true => rfl
      | false =>
        rw [if_neg Bool.false_ne_true, if_neg Bool.false_ne_true,
          ih (.visit reached there asked decides), p.next_append]

end Plan

end Scriptlet.Native
