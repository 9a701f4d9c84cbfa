import Mathlib.Data.List.Basic
import Scriptlet.Eval.Run
import Scriptlet.Proofs.Native.Iteration

/-!
What the methods of arrays that call a callback mean.

Main statement: `array_iterated`. Whatever a callback does, it is called on the elements at one
place after the other, and never beyond the size that the array had at first; if it leaves the array
alone, a method does what its operation on lists does.
-/

namespace Scriptlet.Native

open Eval

section Meaning

variable (r : Recursion) (ref : ArrayRef) (f : FunctionRef) (more : List Value)

/-- Whether the outcome of the call is truthy. -/
def accepts (x : Value × Nat) : Eval Bool :=
  return (← ask r ref f more x.1 x.2).truthy

/-- The meaning of a method on a list of elements. -/
def Iteration.meaning (xs : List Value) : Iteration → Eval Value
  | .map => do
    let ys ← xs.zipIdx.mapM fun x => ask r ref f more x.1 x.2
    newArray ys.toArray
  | .filter => do
    let kept ← xs.zipIdx.filterM (accepts r ref f more)
    newArray (kept.map (·.1)).toArray
  | .forEach => do
    xs.zipIdx.forM fun x => discard (ask r ref f more x.1 x.2)
    return .undefined
  | .reduce =>
    match more, xs with
    | first :: _, xs => xs.zipIdx.foldlM (fun y x => combine r ref f y x.1 x.2) first
    | [], x :: xs => (xs.zipIdx 1).foldlM (fun y x => combine r ref f y x.1 x.2) x
    | [], [] => typeFault .emptyReduce
  | .some => return .boolean (← xs.zipIdx.anyM (accepts r ref f more))
  | .every => return .boolean (← xs.zipIdx.allM (accepts r ref f more))
  | .find => return ((← xs.zipIdx.findM? (accepts r ref f more)).map (·.1)).getD .undefined
  | .findIndex => return indexOrMinusOne ((← xs.zipIdx.findM? (accepts r ref f more)).map (·.2))

end Meaning

/-! ### Lists -/

/-- What is kept, the last visit first. -/
theorem reverse_kept_append (visits : List Visit) (v : Visit) :
    ((kept (visits ++ [v])).map fun v => (v.element, v.place)).reverse =
      bif v.result.truthy
        then (v.element, v.place) :: ((kept visits).map fun v => (v.element, v.place)).reverse
      else ((kept visits).map fun v => (v.element, v.place)).reverse := by
  rw [kept_append]
  cases v.result.truthy with
  | false => rfl
  | true => exact (congrArg List.reverse (List.map_append ..)).trans (List.reverse_append ..)

section Lists

variable {r : Recursion} {ref : ArrayRef} {f : FunctionRef} {more : List Value}

theorem listwise_combining (place : Nat) (first : Value) (xs : List Value) :
    (combining r ref f place first).listwise [] xs =
      (xs.zipIdx place).foldlM (fun y x => combine r ref f y x.1 x.2) first := by
  refine Plan.listwise_eq (fun visits rest => rest.foldlM (fun y x => combine r ref f y x.1 x.2)
    ((combining r ref f place first).last visits)) ?_ ?_ [] xs
  · exact fun _ => rfl
  · intro visits x rest
    rw [List.foldlM_cons]
    apply bind_congr
    intro y
    rw [Calling.last_append]
    rfl

/-- Visiting a list is the only operation that ends and goes on like this. -/
theorem listwise_gathering {complete : List Visit → Eval Value}
    (operation : List Visit → List (Value × Nat) → Eval Value)
    (nil : ∀ visits, operation visits [] = complete visits)
    (cons : ∀ visits x i rest, operation visits ((x, i) :: rest) =
      ask r ref f more x i >>= fun y => operation (visits ++ [⟨x, i, y⟩]) rest) (xs : List Value) :
    (gathering r ref f more complete).listwise [] xs = operation [] xs.zipIdx :=
  Plan.listwise_eq operation nil (fun visits x rest => cons visits x _ rest) [] xs

theorem listwise_map (xs : List Value) :
    (gathering r ref f more fun visits => newArray (visits.map (·.result)).toArray).listwise [] xs =
      Iteration.map.meaning r ref f more xs := by
  refine listwise_gathering (fun visits rest => do
    let ys ← rest.mapM fun x => ask r ref f more x.1 x.2
    newArray (visits.map (·.result) ++ ys).toArray) ?_ ?_ xs
  · intro visits
    rw [List.mapM_nil, pure_bind, List.append_nil]
  · intro visits x i rest
    rw [List.mapM_cons, bind_assoc]
    apply bind_congr
    intro y
    rw [bind_assoc]
    apply bind_congr
    intro ys
    rw [pure_bind, List.map_append, List.append_assoc]
    rfl

theorem listwise_filter (xs : List Value) :
    (gathering r ref f more fun visits => newArray ((kept visits).map (·.element)).toArray).listwise
      [] xs =
      Iteration.filter.meaning r ref f more xs := by
  -- The operation on lists gathers what it keeps in reverse.
  have gathers : Iteration.filter.meaning r ref f more xs =
      List.filterAuxM (accepts r ref f more) xs.zipIdx [] >>= fun found =>
        newArray (found.reverse.map (·.1)).toArray :=
    bind_assoc ..
  rw [gathers]
  refine listwise_gathering (fun visits rest => do
    let found ← List.filterAuxM (accepts r ref f more) rest
      ((kept visits).map fun v => (v.element, v.place)).reverse
    newArray (found.reverse.map (·.1)).toArray) ?_ ?_ xs
  · intro visits
    rw [List.filterAuxM, pure_bind, List.reverse_reverse, List.map_map]
    rfl
  · intro visits x i rest
    rw [List.filterAuxM, accepts, bind_assoc, bind_assoc]
    apply bind_congr
    intro y
    rw [pure_bind, reverse_kept_append]

theorem listwise_forEach (xs : List Value) :
    (gathering r ref f more fun _ => return .undefined).listwise [] xs =
      Iteration.forEach.meaning r ref f more xs := by
  refine listwise_gathering (fun _ rest => do
    rest.forM fun x => discard (ask r ref f more x.1 x.2)
    return .undefined) ?_ ?_ xs
  · exact fun _ => rfl
  · intro visits x i rest
    rw [List.forM_eq_forM, List.forM_cons, bind_assoc]
    exact discard_bind ..

/-- Searching a list is the only operation that ends and goes on like this. -/
theorem listwise_search (wanted : Bool) (decided : Value → Nat → Value) {none : Value}
    (operation : List (Value × Nat) → Eval Value) (nil : operation [] = pure none)
    (cons : ∀ x rest, operation (x :: rest) = accepts r ref f more x >>= fun b =>
      if b == wanted then return decided x.1 x.2 else operation rest) (xs : List Value) :
    (searching r ref f more wanted (fun v => decided v.element v.place) none).listwise [] xs =
      operation xs.zipIdx := by
  refine Plan.listwise_eq (fun _ rest => operation rest) (fun _ => nil)
    (fun visits x rest => ?_) [] xs
  rw [cons, accepts, bind_assoc]
  rfl

theorem listwise_find (answer : Option (Value × Nat) → Value) (xs : List Value) :
    (searching r ref f more true
      (fun v => answer (some (v.element, v.place))) (answer none)).listwise [] xs =
      do return answer (← xs.zipIdx.findM? (accepts r ref f more)) := by
  refine listwise_search true (fun x i => answer (some (x, i)))
    (fun rest => return answer (← rest.findM? (accepts r ref f more))) rfl ?_ xs
  intro x rest
  rw [List.findM?, bind_assoc]
  apply bind_congr
  intro b
  cases b with
  | false => rfl
  | true => rfl

/-- An array that is gone through as a list is so in the way that the method means. -/
theorem listwise_eq_meaning {p : Plan} {m : Iteration} {xs : Array Value}
    (planned : m.plan? r ref f more xs = some p) :
    p.listwise [] (xs.toList.drop p.place) = m.meaning r ref f more xs.toList := by
  cases m with
  | map =>
    cases planned
    exact listwise_map xs.toList
  | filter =>
    cases planned
    exact listwise_filter xs.toList
  | forEach =>
    cases planned
    exact listwise_forEach xs.toList
  | reduce =>
    cases more with
    | cons first more =>
      cases planned
      exact listwise_combining 0 first xs.toList
    | nil =>
      obtain ⟨x, start, rfl⟩ := Option.map_eq_some_iff.1 planned
      obtain ⟨_ | ⟨y, ys⟩⟩ := xs
      · cases start
      · cases start
        exact listwise_combining 1 y ys
  | some =>
    cases planned
    refine listwise_search true (fun _ _ => .boolean true)
      (fun rest => return .boolean (← rest.anyM (accepts r ref f more))) rfl ?_ xs.toList
    intro x rest
    rw [List.anyM_cons, bind_assoc]
    apply bind_congr
    intro b
    cases b <;> rfl
  | every =>
    cases planned
    refine listwise_search false (fun _ _ => .boolean false)
      (fun rest => return .boolean (← rest.allM (accepts r ref f more))) rfl ?_ xs.toList
    intro x rest
    rw [List.allM_cons, bind_assoc]
    apply bind_congr
    intro b
    cases b <;> rfl
  | find =>
    cases planned
    exact listwise_find (fun found => (found.map (·.1)).getD .undefined) xs.toList
  | findIndex =>
    cases planned
    exact listwise_find (fun found => indexOrMinusOne (found.map (·.2))) xs.toList

end Lists

section Method

variable {r : Recursion} {ref : ArrayRef} {f : FunctionRef} {more : List Value} {s : State}
  {p : Plan}
  {m : Iteration}

/-- A method whose calls leave the array alone does what it means on the list of the elements. -/
theorem arrayMethod_eq_meaning (planned : m.plan? r ref f more (s.heap.elements ref) = some p)
    (undisturbed : p.Undisturbed ref s) :
    arrayMethod r m.method (.array ref) (.function f :: more) s =
      m.meaning r ref f more (s.heap.elements ref).toList s := by
  obtain ⟨place, run⟩ := arrayMethod_eq_carry planned
  have all : ((s.heap.elements ref).toList.drop p.place).take
    ((s.heap.elements ref).size - p.place) =
      (s.heap.elements ref).toList.drop p.place :=
    List.take_of_length_le (Nat.le_of_eq List.length_drop)
  rw [run, Plan.carry_eq_listwise undisturbed .start, ← listwise_eq_meaning planned]
  exact congrArg (p.listwise [] · s) all

end Method

/-! ### Pairs of methods -/

/-- Outcomes of one kind, with related values or the same fault, in states that are alike. -/
inductive Matched {α β : Type} (alike : State → State → Prop) (Q : α → β → Prop) :
    Outcome α → Outcome β → Prop where
  | ok {a : α} {b : β} {s t : State} : Q a b → alike s t → Matched alike Q (.ok a s) (.ok b t)
  | fault {e : Fault} {s t : State} : alike s t → Matched alike Q (.fault e s) (.fault e t)
  | exhausted {s t : State} : alike s t → Matched alike Q (.exhausted s) (.exhausted t)

theorem Matched.bind {α β α' β' : Type} {alike : State → State → Prop} {Q : α → β → Prop}
    {P : α' → β' → Prop} {m : Eval α} {n : Eval β} {next : α → Eval α'} {next' : β → Eval β'}
    {s t : State} (first : Matched alike Q (m s) (n t))
    (then_ : ∀ a b s t, Q a b → alike s t → Matched alike P (next a s) (next' b t)) :
    Matched alike P ((m >>= next) s) ((n >>= next') t) := by
  generalize ran : m s = o, ran' : n t = o' at first
  cases first with
  | ok related here =>
    rw [bind_of_ok ran, bind_of_ok ran']
    exact then_ _ _ _ _ related here
  | fault here =>
    rw [bind_of_fault ran, bind_of_fault ran']
    exact .fault here
  | exhausted here =>
    rw [bind_of_exhausted ran, bind_of_exhausted ran']
    exact .exhausted here

/-- The second function holds of an element of the array where the first one does not, and does the
same otherwise, up to states that are alike. -/
structure Negates (r : Recursion) (ref : ArrayRef) (f g : FunctionRef) (more : List Value)
    (alike : State → State → Prop) : Prop where
  elements : ∀ s t, alike s t → s.heap.elements ref = t.heap.elements ref
  calls : ∀ s t, alike s t → ∀ (i : Nat) (x : Value), (s.heap.elements ref)[i]? = some x →
    Matched alike
      (fun y z => z.truthy = !y.truthy) (ask r ref f more x i s) (ask r ref g more x i t)

section Pairs

variable {r : Recursion} {ref : ArrayRef} {f g : FunctionRef} {more : List Value}

theorem Negates.carry {alike : State → State → Prop} (negates : Negates r ref f g more alike)
    {s t : State}
    (here : alike s t) {visits visits' : List Visit} (level : visits.length = visits'.length)
    (count : Nat) :
    Matched alike (fun a b => ∃ c, a = .boolean c ∧ b = .boolean !c)
      ((searching r ref f more false (fun _ => .boolean false) (.boolean true)).carry ref
        visits count s)
      ((searching r ref g more true (fun _ => .boolean true) (.boolean false)).carry ref visits'
        count t) := by
  induction count generalizing s t visits visits' with
  | zero => exact .ok ⟨true, rfl, rfl⟩ here
  | succ count ih =>
    have place : 0 + visits.length = 0 + visits'.length := by rw [level]
    cases there : (s.heap.elements ref)[0 + visits.length]? with
    | none =>
      have there' : (t.heap.elements ref)[0 + visits'.length]? = none := by
        rw [← place, ← negates.elements s t here, there]
      rw [Plan.carry_succ_of_none count there, Plan.carry_succ_of_none count there']
      exact .ok ⟨true, rfl, rfl⟩ here
    | some x =>
      have there' : (t.heap.elements ref)[0 + visits'.length]? = some x := by
        rw [← place, ← negates.elements s t here, there]
      rw [Plan.carry_succ_of_some count there, Plan.carry_succ_of_some count there']
      have calls : Matched alike
        (fun y z => z.truthy = !y.truthy) (ask r ref f more x (0 + visits.length) s)
          (ask r ref g more x (0 + visits'.length) t) := by
        rw [← place]
        exact negates.calls s t here _ x there
      refine calls.bind fun y z u v opposite here => ?_
      rw [searching_decides, searching_decides, opposite]
      cases y.truthy with
      | false => exact .ok ⟨false, rfl, rfl⟩ here
      | true => exact ih here (by rw [List.length_append, List.length_append, level]; rfl)

/-- What is found in a list is in it. -/
theorem mem_of_findM? {α : Type} {p : α → Eval Bool} {xs : List α} {a : α} {s t : State}
    (found : xs.findM? p s = .ok (some a) t) : a ∈ xs := by
  induction xs generalizing s with
  | nil => cases found
  | cons x xs ih =>
    obtain ⟨b, u, -, rest⟩ := bind_ok found
    cases b with
    | true =>
      cases rest
      exact List.mem_cons_self
    | false => exact List.mem_cons_of_mem x (ih rest)

/-- If the function leaves the array alone, what is found is the element at the index that is
found. -/
theorem find_of_findIndex {s : State}
    (undisturbed : (searching r ref f more true (·.element) .undefined).Undisturbed ref s) :
    (∃ i x t, (s.heap.elements ref)[i]? = some x ∧
        arrayMethod r .find (.array ref) (.function f :: more) s = .ok x t ∧
        arrayMethod r .findIndex (.array ref) (.function f :: more) s = .ok (index i) t) ∨
      (∃ t, arrayMethod r .find (.array ref) (.function f :: more) s = .ok .undefined t ∧
        arrayMethod r .findIndex (.array ref) (.function f :: more) s = .ok (.number (-1.0)) t) ∨
      (∃ e t, arrayMethod r .find (.array ref) (.function f :: more) s = .fault e t ∧
        arrayMethod r .findIndex (.array ref) (.function f :: more) s = .fault e t) ∨
      ∃ t, arrayMethod r .find (.array ref) (.function f :: more) s = .exhausted t ∧
        arrayMethod r .findIndex (.array ref) (.function f :: more) s = .exhausted t := by
  have finds : arrayMethod r .find (.array ref) (.function f :: more) s =
      Iteration.find.meaning r ref f more (s.heap.elements ref).toList s :=
    arrayMethod_eq_meaning (m := .find) rfl undisturbed
  have finds' : arrayMethod r .findIndex (.array ref) (.function f :: more) s =
      Iteration.findIndex.meaning r ref f more (s.heap.elements ref).toList s :=
    arrayMethod_eq_meaning (m := .findIndex) rfl undisturbed
  rw [finds, finds', Iteration.meaning, Iteration.meaning]
  cases ran : (s.heap.elements ref).toList.zipIdx.findM? (accepts r ref f more) s with
  | ok found t =>
    rw [bind_of_ok ran, bind_of_ok ran]
    cases found with
    | none => exact .inr (.inl ⟨t, rfl, rfl⟩)
    | some found =>
      have there := List.mk_mem_zipIdx_iff_getElem?.1 (mem_of_findM? ran)
      rw [Array.getElem?_toList] at there
      exact .inl ⟨found.2, found.1, t, there, rfl, rfl⟩
  | fault e t =>
    rw [bind_of_fault ran, bind_of_fault ran]
    exact .inr (.inr (.inl ⟨e, t, rfl, rfl⟩))
  | exhausted t =>
    rw [bind_of_exhausted ran, bind_of_exhausted ran]
    exact .inr (.inr (.inr ⟨t, rfl, rfl⟩))

end Pairs

/-! ### Main statement -/

/-- Iterating over an array by a function that may do anything. Each method calls it as planned, up
to the first size of the array and while there are elements, and stops where a call decides or
fails. If it leaves the array alone, the method does what it means on the list of the elements; then
what is found is the element at the index that is found. That a function holds of all elements is
that its negation holds of none. -/
theorem array_iterated (r : Recursion) (ref : ArrayRef) (f : FunctionRef) (more : List Value)
    (s : State) :
    let xs := s.heap.elements ref
    let run (m : Iteration) := arrayMethod r m.method (.array ref) (.function f :: more) s
    (∀ m : Iteration, match m.plan? r ref f more xs with
      | none => m = .reduce ∧ more = [] ∧ xs = #[] ∧ run m = typeFault .emptyReduce s
      | some p => p.Course ref xs.size s (run m) ∧
        (p.Undisturbed ref s → run m = m.meaning r ref f more xs.toList s)) ∧
    ((searching r ref f more true (·.element) .undefined).Undisturbed ref s →
      (∃ i x t, xs[i]? = some x ∧ run .find = .ok x t ∧ run .findIndex = .ok (index i) t) ∨
        (∃ t, run .find = .ok .undefined t ∧ run .findIndex = .ok (.number (-1.0)) t) ∨
        (∃ e t, run .find = .fault e t ∧ run .findIndex = .fault e t) ∨
        ∃ t, run .find = .exhausted t ∧ run .findIndex = .exhausted t) ∧
    ∀ g alike t, Negates r ref f g more alike → alike s t →
      Matched alike (fun a b => ∃ c, a = .boolean c ∧ b = .boolean !c) (run .every)
        (arrayMethod r .some (.array ref) (.function g :: more) t) := by
  intro xs run
  refine ⟨fun m => ?_, find_of_findIndex, fun g alike t negates here => ?_⟩
  · cases planned : m.plan? r ref f more xs with
    | none =>
      obtain ⟨rfl, rfl, empty⟩ := eq_reduce_of_plan?_eq_none planned
      have none : (s.heap.elements ref)[0]? = none := congrArg (·[0]?) empty
      refine ⟨rfl, rfl, empty, (arrayMethod_reduce r ref f s).trans ?_⟩
      rw [none]
      rfl
    | some p => exact ⟨arrayMethod_course planned, arrayMethod_eq_meaning planned⟩
  · have every : run .every = _ := (arrayMethod_eq_carry rfl).2
    have some : arrayMethod r .some (.array ref) (.function g :: more) t = _ :=
      (arrayMethod_eq_carry (m := .some) rfl).2
    rw [every, some, ← negates.elements s t here]
    exact negates.carry here rfl _

/-- An array with a number and NaN, and functions that tell which of them is one. -/
def numbers : State where
  heap :=
    { arrays := #[#[.number 1.0, .number Number.nan]]
      functions := #[⟨"isNaN", .native 1 (.global .isNaN), {}⟩,
        ⟨"isFinite", .native 1 (.global .isFinite), {}⟩] }
  scopes := .new
  realm := default

theorem ask_numbers {x : Value} {i : Nat} (there : (numbers.heap.elements ⟨0⟩)[i]? = some x) :
    ∃ y : Bool, ask (recursion 1) ⟨0⟩ ⟨0⟩ [] x i numbers = .ok (.boolean y) numbers ∧
      ask (recursion 1) ⟨0⟩ ⟨1⟩ [] x i numbers = .ok (.boolean !y) numbers := by
  match i with
  | 0 =>
    cases there
    exact ⟨false, rfl, rfl⟩
  | 1 =>
    cases there
    exact ⟨true, rfl, rfl⟩
  | _ + 2 => cases there

theorem undisturbed_numbers (p : Calling) (asks : p.ask = fun _ => ask (recursion 1) ⟨0⟩ ⟨0⟩ []) :
    p.Undisturbed ⟨0⟩ numbers := by
  have still (visits : List Visit) (t : State) (reached : p.Reaches ⟨0⟩ numbers visits t) :
      t = numbers := by
    induction reached with
    | start => rfl
    | visit _ there asked _ ih =>
      rw [ih] at there asked
      obtain ⟨y, answers, -⟩ := ask_numbers there
      rw [asks] at asked
      cases answers.symm.trans asked
      rfl
  intro visits t reached
  rw [still visits t reached]

theorem negates_numbers :
    Negates (recursion 1) ⟨0⟩ ⟨0⟩ ⟨1⟩ [] fun s t => s = numbers ∧ t = numbers := by
  refine ⟨?_, ?_⟩
  · rintro s t ⟨rfl, rfl⟩
    rfl
  · rintro s t ⟨rfl, rfl⟩ i x there
    obtain ⟨y, answers, answers'⟩ := ask_numbers there
    rw [answers, answers']
    exact .ok rfl ⟨rfl, rfl⟩

theorem array_iterated_numbers :
    (searching (recursion 1) ⟨0⟩ ⟨0⟩ [] true (·.element) .undefined).Undisturbed ⟨0⟩ numbers ∧
      Negates (recursion 1) ⟨0⟩ ⟨0⟩ ⟨1⟩ [] (fun s t => s = numbers ∧ t = numbers) ∧
      arrayMethod (recursion 1) .find (.array ⟨0⟩) [.function ⟨0⟩] numbers =
        .ok (.number Number.nan) numbers ∧
      Matched (fun s t => s = numbers ∧ t = numbers)
        (fun a b => ∃ c, a = .boolean c ∧ b = .boolean !c)
        (arrayMethod (recursion 1) .every (.array ⟨0⟩) [.function ⟨0⟩] numbers)
        (arrayMethod (recursion 1) .some (.array ⟨0⟩) [.function ⟨1⟩] numbers) := by
  have iterated := array_iterated (recursion 1) ⟨0⟩ ⟨0⟩ [] numbers
  have undisturbed := undisturbed_numbers
    (searching (recursion 1) ⟨0⟩ ⟨0⟩ [] true (·.element) .undefined).toCalling rfl
  exact ⟨undisturbed, negates_numbers, (iterated.1 .find).2 undisturbed,
    iterated.2.2 ⟨1⟩ _ numbers negates_numbers ⟨rfl, rfl⟩⟩

end Scriptlet.Native
