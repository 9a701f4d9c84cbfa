import Mathlib.Data.List.Basic
import Scriptlet.Proofs.Native.Course

/-!
The methods of arrays that call a callback on the elements in turn, each with its plan.
-/

namespace Scriptlet.Native

open Eval

inductive Iteration where
  | map
  | filter
  | forEach
  | reduce
  | some
  | every
  | find
  | findIndex
  deriving DecidableEq, Repr

def Iteration.method : Iteration → ArrayMethod
  | .map => .map
  | .filter => .filter
  | .forEach => .forEach
  | .reduce => .reduce
  | .some => .some
  | .every => .every
  | .find => .find
  | .findIndex => .findIndex

/-- The visits on which the outcome of the call is truthy. -/
def kept (visits : List Visit) : List Visit :=
  visits.filter (·.result.truthy)

theorem kept_append (visits : List Visit) (v : Visit) :
    kept (visits ++ [v]) = if v.result.truthy then kept visits ++ [v] else kept visits := by
  rw [kept, List.filter_append, List.filter_singleton]
  cases v.result.truthy
  · exact List.append_nil _
  · rfl

section Plans

variable (r : Recursion) (ref : ArrayRef) (f : FunctionRef) (more : List Value)

/-- Calls a function on an element, its index and the array. -/
def ask (x : Value) (i : Nat) : Eval Value :=
  r.call (.function f) (argument more 0) [x, index i, .array ref]

/-- Calls a function on what came of the elements before, an element, its index and the array. -/
def combine (y x : Value) (i : Nat) : Eval Value :=
  r.call (.function f) .undefined [y, x, index i, .array ref]

/-- Visits all elements. -/
def gathering (complete : List Visit → Eval Value) : Plan where
  ask _ := ask r ref f more
  complete := complete

/-- Looks for an element on which the outcome of the call is as wanted. -/
def searching (wanted : Bool) (decided : Visit → Value) (missing : Value) : Plan where
  ask _ := ask r ref f more
  decides y := y.truthy == wanted
  decided := decided
  complete _ := return missing

theorem searching_decides (wanted : Bool) (decided : Visit → Value) (missing y : Value) :
    (searching r ref f more wanted decided missing).decides y = (y.truthy == wanted) :=
  rfl

def combining (place : Nat) (first : Value) : Plan where
  place := place
  first := first
  ask := combine r ref f
  complete visits := return (visits.getLast?.map (·.result)).getD first

/-- What a method does with a function and more arguments on an array that has some elements at
first. There is no plan for reducing an array from its first element that has none. -/
def Iteration.plan? (xs : Array Value) : Iteration → Option Plan
  | .map => .some (gathering r ref f more fun visits => newArray (visits.map (·.result)).toArray)
  | .filter =>
    .some (gathering r ref f more fun visits => newArray ((kept visits).map (·.element)).toArray)
  | .forEach => .some (gathering r ref f more fun _ => return .undefined)
  | .reduce =>
    match more with
    | first :: _ => .some (combining r ref f 0 first)
    | [] => xs[0]?.map (combining r ref f 1)
  | .some => .some (searching r ref f more true (fun _ => .boolean true) (.boolean false))
  | .every => .some (searching r ref f more false (fun _ => .boolean false) (.boolean true))
  | .find => .some (searching r ref f more true (·.element) .undefined)
  | .findIndex =>
    .some (searching r ref f more true (fun visit => index visit.place) (.number (-1.0)))

end Plans

/-! ### Walks -/

section Walk

variable {r : Recursion} {ref : ArrayRef} {callback receiver : Value} {σ τ : Type} {p : Plan}

/-- A walk goes as planned if its accumulator tells what the calls so far come to. -/
theorem walk_eq_carry {step : σ → Nat → Value → Value → Except τ σ}
    {finish : Except τ σ → Eval Value}
    (view : List Visit → σ)
    (asks : p.ask = fun _ x i => r.call callback receiver [x, index i, .array ref])
    (stops : ∀ visits v, p.decides v.result = true → ∃ found,
      step (view visits) v.place v.element v.result = .error found ∧
        finish (.error found) = pure (p.decided v))
    (goes : ∀ visits v, p.decides v.result = false →
      step (view visits) v.place v.element v.result = .ok (view (visits ++ [v])))
    (through : ∀ visits, finish (.ok (view visits)) = p.complete visits) (visits : List Visit)
    (count : Nat) :
    walk r ref callback receiver step (p.next visits) (view visits) count >>= finish =
      p.carry ref visits count := by
  induction count generalizing visits with
  | zero => exact through visits
  | succ count ih =>
    funext t
    rw [walk, bind_assoc, bind_gets]
    cases there : (t.heap.elements ref)[p.next visits]? with
    | none =>
      rw [Plan.carry_succ_of_none count there, ← through]
      rfl
    | some x =>
      rw [Plan.carry_succ_of_some count there, asks]
      dsimp only
      rw [bind_assoc]
      apply bind_congr_of_ok
      intro y u _
      cases decides : p.decides y with
      | true =>
        obtain ⟨found, stop, answer⟩ := stops visits ⟨x, p.next visits, y⟩ decides
        rw [stop, if_pos rfl, ← answer]
        rfl
      | false =>
        rw [goes visits ⟨x, p.next visits, y⟩ decides, if_neg Bool.false_ne_true, ← ih,
          p.next_append]

theorem fold_eq_carry (f : FunctionRef) (place : Nat) (first : Value) (visits : List Visit)
    (count : Nat) :
    fold r ref (.function f) ((combining r ref f place first).next visits)
        ((combining r ref f place first).last visits) count =
      (combining r ref f place first).carry ref visits count := by
  induction count generalizing visits with
  | zero => rfl
  | succ count ih =>
    funext t
    rw [fold, bind_gets]
    cases there : (t.heap.elements ref)[(combining r ref f place first).next visits]? with
    | none =>
      rw [Plan.carry_succ_of_none count there]
      rfl
    | some x =>
      rw [Plan.carry_succ_of_some count there]
      refine congrFun (bind_congr fun y => ?_) t
      have goes : (combining r ref f place first).decides y = false := rfl
      rw [goes, if_neg Bool.false_ne_true, ← ih, Calling.next_append, Calling.last_append]

end Walk

section Method

variable {r : Recursion} {ref : ArrayRef} {f : FunctionRef} {more : List Value} {s : State}

theorem eachElement_gathering {σ : Type} {complete : List Visit → Eval Value}
    {step : σ → Nat → Value → Value → Except Empty σ} {finish : Except Empty σ → Eval Value}
    (m : ArrayMethod) (view : List Visit → σ)
    (goes : ∀ visits v, step (view visits) v.place v.element v.result = .ok (view (visits ++ [v])))
    (through : ∀ visits, finish (.ok (view visits)) = complete visits) (s : State) :
    (eachElement r (.array ref) (.function f :: more) m (view []) step >>= finish) s =
      (gathering r ref f more complete).carry ref [] (s.heap.elements ref).size s :=
  congrFun
    (walk_eq_carry (p := gathering r ref f more complete) view rfl (fun _ _ stops => nomatch stops)
    (fun visits v _ => goes visits v) through [] (s.heap.elements ref).size) s

theorem search_searching {wanted : Bool} {decided : Visit → Value}
    {answer : Option (Nat × Value) → Value}
    (m : ArrayMethod) (found : ∀ v, answer (some (v.place, v.element)) = decided v) (s : State) :
    (search r (.array ref) (.function f :: more) m wanted >>= fun o => pure (answer o)) s =
      (searching r ref f more wanted decided (answer none)).carry ref []
        (s.heap.elements ref).size s := by
  rw [search, bind_assoc]
  refine congrFun
    (walk_eq_carry (p := searching r ref f more wanted decided (answer none)) (fun _ => ()) rfl
    ?_ ?_ ?_ [] (s.heap.elements ref).size) s
  · intro _ v stops
    exact ⟨_, if_pos stops, (pure_bind _ _).trans (congrArg pure (found v))⟩
  · intro _ v goes
    exact if_neg (Bool.eq_false_iff.1 goes)
  · exact fun _ => rfl

/-- Without another argument, reducing starts from the first element. -/
theorem arrayMethod_reduce (r : Recursion) (ref : ArrayRef) (f : FunctionRef) (s : State) :
    arrayMethod r .reduce (.array ref) [.function f] s =
      ((s.heap.elements ref)[0]?.elim (typeFault .emptyReduce)
        fun x => fold r ref (.function f) 1 x ((s.heap.elements ref).size - 1)) s := by
  change reduce r (.array ref) [.function f] s = _
  simp only [reduce, thisArray, callbackOf, pure_bind]
  rw [bind_gets]
  cases (s.heap.elements ref)[0]? <;> rfl

/-- Each method goes through the elements as planned. -/
theorem arrayMethod_eq_carry {p : Plan} {m : Iteration}
    (planned : m.plan? r ref f more (s.heap.elements ref) = .some p) :
    p.place ≤ (s.heap.elements ref).size ∧
    arrayMethod r m.method (.array ref) (.function f :: more) s =
      p.carry ref [] ((s.heap.elements ref).size - p.place) s := by
  cases m with
  | map =>
    cases planned
    refine ⟨Nat.zero_le _,
      eachElement_gathering .map (fun visits => (visits.map (·.result)).toArray) ?_ ?_ s⟩
    · intro visits v
      rw [List.push_toArray, List.map_append]
      rfl
    · exact fun _ => rfl
  | filter =>
    cases planned
    refine ⟨Nat.zero_le _,
      eachElement_gathering .filter (fun visits => ((kept visits).map (·.element)).toArray) ?_ ?_ s⟩
    · intro visits v
      rw [kept_append]
      cases v.result.truthy <;> simp
    · exact fun _ => rfl
  | forEach =>
    cases planned
    refine ⟨Nat.zero_le _, (congrFun (discard_bind ..) s).trans
      (eachElement_gathering .forEach (fun _ => ()) ?_ ?_ s)⟩
    · exact fun _ _ => rfl
    · exact fun _ => rfl
  | some =>
    cases planned
    exact ⟨Nat.zero_le _, search_searching .some (fun _ => rfl) s⟩
  | every =>
    cases planned
    exact ⟨Nat.zero_le _, search_searching .every (fun _ => rfl) s⟩
  | find =>
    cases planned
    exact ⟨Nat.zero_le _, search_searching .find (fun _ => rfl) s⟩
  | findIndex =>
    cases planned
    exact ⟨Nat.zero_le _, search_searching .findIndex (fun _ => rfl) s⟩
  | reduce =>
    cases more with
    | cons first more =>
      cases planned
      exact ⟨Nat.zero_le _, congrFun (fold_eq_carry f 0 first [] _) s⟩
    | nil =>
      obtain ⟨x, start, rfl⟩ := Option.map_eq_some_iff.1 planned
      have given : 1 ≤ (s.heap.elements ref).size := (Array.getElem?_eq_some_iff.1 start).1
      refine ⟨given, (arrayMethod_reduce r ref f s).trans ?_⟩
      rw [start]
      exact congrFun (fold_eq_carry f 1 x [] _) s

/-- Whatever the calls do, they are made in the course that is planned. -/
theorem arrayMethod_course {p : Plan} {m : Iteration}
    (planned : m.plan? r ref f more (s.heap.elements ref) = some p) :
    p.Course ref (s.heap.elements ref).size s
      (arrayMethod r m.method (.array ref) (.function f :: more) s) := by
  obtain ⟨place, run⟩ := arrayMethod_eq_carry planned
  rw [run]
  exact Plan.carry_course .start (Nat.add_sub_cancel' place)

/-- There is nothing to start from only in reducing an empty array. -/
theorem eq_reduce_of_plan?_eq_none {m : Iteration} {xs : Array Value}
    (none : m.plan? r ref f more xs = .none) :
    m = .reduce ∧ more = [] ∧ xs = #[] := by
  cases m with
  | reduce =>
    cases more with
    | cons => cases none
    | nil =>
      exact ⟨rfl, rfl, Array.size_eq_zero_iff.1 (by simpa using Option.map_eq_none_iff.1 none)⟩
  | _ => cases none

end Method

end Scriptlet.Native
