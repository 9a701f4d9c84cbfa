import Scriptlet.Proofs.Eval.Limit
import Scriptlet.Proofs.Scope.Change
import Scriptlet.Proofs.Value.Index
import Scriptlet.Proofs.Value.Log

/-!
What settings and deletions of properties do to containers.

A call changes the container that it is made on, or is refused and changes nothing. What a sequence
of calls leaves can be told from those that were made on a container one after the other. Main
statement: `Call.stores_kept`.
-/

namespace Scriptlet

open Eval

/-- A property of a value is set or deleted. -/
structure Call where
  receiver : Value
  change : Change Value

namespace Call

variable {c : Call} {s : State} {h : Heap} {x : Holding}

def run (c : Call) : Eval Unit :=
  match c.change.value? with
  | some v => setProperty c.receiver c.change.key v
  | none => do discard (deleteProperty c.receiver c.change.key)

/-- Of an array it is a place that is set or deleted, and not the last one that a key can tell. -/
def Indexed (c : Call) : Prop :=
  match c.receiver with
  | .array _ => ∃ i, arrayIndex? c.change.key = some i ∧ i ≠ maxIndex
  | _ => True

/-- There is nothing to change, or an array would get too long. -/
def Refused (c : Call) (h : Heap) : Prop :=
  match c.receiver, c.change.value? with
  | .undefined, _ | .null, _ => True
  | .array r, some v => h.Refuses r c.change.key v
  | _, _ => False

def succeeds (c : Call) (s : State) : Bool :=
  match c.run s with
  | .ok .. => true
  | _ => false

/-- The state in which a call ends, however it does. -/
def next (c : Call) (s : State) : State :=
  match c.run s with
  | .ok _ t | .fault _ t | .exhausted t => t

/-- The state after a sequence of calls; it goes on past those that fail. -/
def runAll (calls : List Call) (s : State) : State :=
  calls.foldl (fun s c => c.next s) s

/-- The calls of a sequence that succeed at their turn. -/
def accepted : List Call → State → List Call
  | [], _ => []
  | c :: rest, s => if c.succeeds s then c :: accepted rest (c.next s) else accepted rest (c.next s)

/-- The changes that calls make to a container. -/
def changesOf (x : Holding) (calls : List Call) : List (Change Value) :=
  (calls.filter fun c => Holding.ofValue? c.receiver = some x).map (·.change)

end Call

/-- A list with a place set, or blanked. A place past the end is set with undefined in those before
it. -/
def Change.place (c : Change Value) (xs : List Value) : List Value :=
  match arrayIndex? c.key, c.value? with
  | some i, some v =>
    if i < xs.length then xs.set i v else xs ++ List.replicate (i - xs.length) .undefined ++ [v]
  | some i, none => xs.set i .undefined
  | none, _ => xs

def Object.change (o : Object) (c : Change Value) : Object :=
  { o with props := c.apply o.props }

def FunctionObject.change (f : FunctionObject) (c : Change Value) : FunctionObject :=
  { f with props := c.apply f.props }

theorem Object.foldl_change (log : List (Change Value)) (o : Object) :
    log.foldl change o = { o with props := log.foldl Change.apply o.props } :=
  List.foldl_hom (fun props => { o with props }) fun _ _ => rfl

theorem FunctionObject.foldl_change (log : List (Change Value)) (f : FunctionObject) :
    log.foldl (fun f c => f.map (·.change c)) (some f) =
      some { f with props := log.foldl Change.apply f.props } :=
  List.foldl_hom (fun props => some { f with props }) fun _ _ => rfl

/-! ### Changes of one array -/

namespace Heap

variable {h : Heap}

theorem modifyArray_congr {r : ArrayRef} {f g : Array Value → Array Value}
    (same : f (h.elements r) = g (h.elements r)) : h.modifyArray r f = h.modifyArray r g := by
  have arrays : h.arrays.modify r.index f = h.arrays.modify r.index g := by
    refine Array.ext (by simp) fun i inside _ => ?_
    rw [Array.getElem_modify, Array.getElem_modify]
    split
    next here =>
      subst here
      have there : r.index < h.arrays.size := by simpa using inside
      simpa [Heap.elements, there] using same
    next => rfl
  rw [Heap.modifyArray, Heap.modifyArray, arrays]

theorem modifyArray_id (r : ArrayRef) : h.modifyArray r (fun xs => xs) = h := by
  have arrays : h.arrays.modify r.index (fun xs => xs) = h.arrays :=
    Array.ext (by simp) fun i _ _ => by simp [Array.getElem_modify]
  rw [Heap.modifyArray, arrays]

end Heap

theorem toList_resize {i : Nat} {xs : Array Value} (beyond : xs.size ≤ i) :
    (resize i xs).toList = xs.toList ++ List.replicate (i - xs.size) .undefined := by
  unfold resize
  rcases Nat.lt_or_eq_of_le beyond with short | rfl
  · simp [short]
  · simp

/-! ### What a call does -/

namespace Call

variable {c : Call} {s : State} {h : Heap} {x : Holding}

/-- The elements of an array that a call succeeds on. -/
def fill (c : Call) (h : Heap) (xs : Array Value) : Array Value :=
  if c.change.key = "length" then
    match c.change.value?.bind fun v => lengthOf? (h.number v) with
    | some n => resize n xs
    | none => xs
  else (c.change.place xs.toList).toArray

/-- The heap after a call that succeeds. -/
def effect (c : Call) (h : Heap) : Heap :=
  match c.receiver with
  | .object r => h.modifyObject r (·.change c.change)
  | .function r => h.modifyFunction r (·.change c.change)
  | .array r => h.modifyArray r (c.fill h)
  | _ => h

theorem ok_modifyArray {r : ArrayRef} {f g : Array Value → Array Value}
    (same : f (s.heap.elements r) = g (s.heap.elements r)) :
    Outcome.ok () { s with heap := s.heap.modifyArray r f } =
      .ok () { s with heap := s.heap.modifyArray r g } :=
  congrArg (fun h => Outcome.ok () { s with heap := h }) (Heap.modifyArray_congr same)

theorem ok_self {r : ArrayRef} {g : Array Value → Array Value}
    (same : s.heap.elements r = g (s.heap.elements r)) :
    Outcome.ok () s = .ok () { s with heap := s.heap.modifyArray r g } := by
  rw [← Heap.modifyArray_congr (f := fun xs => xs) same, Heap.modifyArray_id]

/-- A place that an array may have is set. -/
theorem setElement_eq {r : ArrayRef} {i : Nat} {v : Value}
    (allowed : ¬((s.heap.elements r).size ≤ i ∧ Value.maxArrayLength ≤ i))
    (spelled : arrayIndex? c.change.key = some i) (sets : c.change.value? = some v) :
    setElement r i v s = .ok () { s with heap := s.heap.modifyArray r (c.fill s.heap) } := by
  have index := index_ne_length spelled
  simp only [setElement, Bind.bind, Eval.bind, Eval.gets]
  by_cases inside : i < (s.heap.elements r).size
  · rw [if_pos inside]
    exact ok_modifyArray (Array.ext' (by simp [fill, index, Change.place, spelled, sets, inside]))
  · rw [if_neg inside, if_pos (by omega)]
    refine ok_modifyArray (Array.ext' ?_)
    simp [toList_resize (Nat.le_of_not_lt inside), fill, index, Change.place, spelled, sets, inside]

theorem set_array_eq {r : ArrayRef} {key : String} {v : Value} (allowed : ¬s.heap.Refuses r key v) :
    setProperty (.array r) key v s =
      .ok () { s with heap := s.heap.modifyArray r (fill ⟨.array r, key, some v⟩ s.heap) } := by
  simp only [setProperty]
  by_cases length : key = "length"
  · simp only [if_pos length, Bind.bind, Eval.bind, Eval.gets]
    cases asked : lengthOf? (s.heap.number v) with
    | none => exact absurd (by simpa [Heap.Refuses, length] using asked) allowed
    | some n =>
      exact ok_modifyArray (by simp [fill, length, asked])
  · simp only [if_neg length]
    cases spelled : arrayIndex? key with
    | none => exact ok_self (by simp [fill, length, Change.place, spelled])
    | some i =>
      refine setElement_eq (c := ⟨.array r, key, some v⟩) (fun beyond => allowed ?_) spelled rfl
      simpa [Heap.Refuses, length, spelled] using beyond

theorem delete_array_eq (r : ArrayRef) (key : String) (s : State) : run ⟨.array r, key, none⟩ s =
    .ok () { s with heap := s.heap.modifyArray r (fill ⟨.array r, key, none⟩ s.heap) } := by
  cases spelled : arrayIndex? key with
  | none =>
    have done : run ⟨.array r, key, none⟩ s = .ok () s := by
      simp [run, deleteProperty, spelled]; rfl
    exact done.trans (ok_self (by simp [fill, Change.place, spelled]))
  | some i =>
    have done : run ⟨.array r, key, none⟩ s =
        .ok () { s with heap := s.heap.modifyArray r (·.setIfInBounds i .undefined) } := by
      simp [run, deleteProperty, spelled]; rfl
    exact done.trans
      (ok_modifyArray (Array.ext' (by simp [fill, index_ne_length spelled, Change.place, spelled])))

/-- A call is refused with everything as it was, or has its effect. -/
theorem run_cases (c : Call) (s : State) :
    (c.Refused s.heap ∧ ∃ f, c.run s = .fault f s) ∨
    (¬c.Refused s.heap ∧ c.run s = .ok () { s with heap := c.effect s.heap }) := by
  obtain ⟨receiver, key, value?⟩ := c
  cases value? with
  | some v =>
    cases receiver with
    | undefined | null => exact .inl ⟨trivial, _, rfl⟩
    | array r =>
      rcases setProperty_array_cases r key v s with ⟨refused, fails⟩ | ⟨allowed, -⟩
      · exact .inl ⟨refused, _, fails⟩
      · exact .inr ⟨allowed, set_array_eq allowed⟩
    | object | function | boolean | number | string => exact .inr ⟨id, rfl⟩
  | none =>
    cases receiver with
    | undefined | null => exact .inl ⟨trivial, _, rfl⟩
    | array r => exact .inr ⟨id, delete_array_eq r key s⟩
    | object | function | boolean | number | string => exact .inr ⟨id, rfl⟩

theorem set_cases (target : Value) (key : String) (v : Value) (s : State) :
    (∃ f, setProperty target key v s = .fault f s) ∨
    (¬Refused ⟨target, key, some v⟩ s.heap ∧
      setProperty target key v s = .ok () { s with heap := effect ⟨target, key, some v⟩ s.heap }) :=
  (run_cases ⟨target, key, some v⟩ s).imp_left (·.2)

/-! ### What a sequence of calls does -/

variable {calls : List Call} {a : Arena}

theorem runAll_cons (rest : List Call) : runAll (c :: rest) s = runAll rest (c.next s) :=
  rfl

theorem succeeds_iff : c.succeeds s = true ↔ ¬c.Refused s.heap := by
  unfold succeeds
  rcases c.run_cases s with ⟨refused, f, fails⟩ | ⟨allowed, done⟩
  · simp [fails, refused]
  · simp [done, allowed]

theorem next_eq (c : Call) (s : State) :
    c.next s = if c.succeeds s then { s with heap := c.effect s.heap } else s := by
  unfold next succeeds
  rcases c.run_cases s with ⟨-, f, fails⟩ | ⟨-, done⟩
  · simp [fails]
  · simp [done]

/-- A call makes no containers and takes none away. -/
theorem holdings_effect (c : Call) (h : Heap) : (c.effect h).holdings = h.holdings := by
  unfold effect
  split <;> simp [Heap.holdings, Heap.modifyObject, Heap.modifyFunction, Heap.modifyArray]

/-- Only arrays refuse to be changed. -/
theorem not_refused (addressed : Holding.ofValue? c.receiver = some x) (apart : ∀ r, x ≠ .array r) :
    ¬c.Refused h := by
  obtain ⟨receiver, change⟩ := c
  cases receiver with
  | array r =>
    cases addressed
    exact absurd rfl (apart r)
  | object | function => exact id
  | _ => cases addressed

theorem changesOf_accepted (apart : ∀ r, x ≠ .array r) (calls : List Call) (s : State) :
    changesOf x (accepted calls s) = changesOf x calls := by
  induction calls generalizing s with
  | nil => rfl
  | cons c rest ih =>
    have later := ih (c.next s)
    simp only [changesOf] at later
    by_cases addressed : Holding.ofValue? c.receiver = some x
    · have done := succeeds_iff.2 (not_refused (h := s.heap) addressed apart)
      simp [changesOf, accepted, done, addressed, later]
    · rw [accepted]
      split <;> simp [changesOf, addressed, later]

theorem unchanged_effect (apart : Holding.ofValue? c.receiver ≠ some x) :
    Unchanged a a h (c.effect h) x := by
  have other {y : Holding} (addressed : Holding.ofValue? c.receiver = some y) : x ≠ y := by
    rintro rfl
    exact apart addressed
  unfold effect
  split
  next r receiver => exact unchanged_modifyObject _ (other (by rw [receiver]; rfl))
  next r receiver => exact unchanged_modifyFunction _ (other (by rw [receiver]; rfl))
  next r receiver => exact unchanged_modifyArray _ (other (by rw [receiver]; rfl))
  next => exact unchanged_of_records fun _ _ => ⟨rfl, rfl⟩

/-- What each call does to a container, all of them do one after the other. -/
theorem view_runAll {β : Type} (view : Heap → β) (act : β → Change Value → β)
    (step : ∀ c ∈ calls, ∀ h, x ∈ h.holdings →
      view (effect c h) = if Holding.ofValue? c.receiver = some x then act (view h) c.change
        else view h)
    (there : x ∈ s.heap.holdings) :
    view (runAll calls s).heap = (changesOf x (accepted calls s)).foldl act (view s.heap) := by
  induction calls generalizing s with
  | nil => rfl
  | cons c rest ih =>
    have later (t : State) := @ih t fun c member => step c (List.mem_cons_of_mem _ member)
    rw [runAll_cons, accepted, next_eq]
    cases done : c.succeeds s with
    | false => exact later s there
    | true =>
      have stays : x ∈ (c.effect s.heap).holdings := (holdings_effect c s.heap).symm ▸ there
      simp only [if_true]
      rw [later { s with heap := c.effect s.heap } stays, step c List.mem_cons_self s.heap there]
      simp only [changesOf, List.filter_cons, decide_eq_true_eq]
      split <;> rfl

/-- What the effects of the calls keep is so in the end. -/
theorem runAll_keeps {P : State → Prop}
    (step : ∀ c ∈ calls, ∀ t, P t → P { t with heap := c.effect t.heap })
    (start : P s) : P (runAll calls s) := by
  induction calls generalizing s with
  | nil => exact start
  | cons c rest ih =>
    rw [runAll_cons]
    refine ih (fun c member => step c (List.mem_cons_of_mem _ member)) ?_
    rw [next_eq]
    split
    · exact step c List.mem_cons_self s start
    · exact start

theorem unchanged_runAll (apart : ∀ c ∈ calls, Holding.ofValue? c.receiver ≠ some x) :
    Unchanged s.scopes (runAll calls s).scopes s.heap (runAll calls s).heap x := by
  refine runAll_keeps (P := fun t => Unchanged s.scopes t.scopes s.heap t.heap x)
    (fun c member t before => ?_) (unchanged_of_records fun _ _ => ⟨rfl, rfl⟩)
  have after := unchanged_effect (a := t.scopes) (h := t.heap) (apart c member)
  cases x with
  | scope => exact before
  | array | object | function => exact after.trans before

/-! ### The contents of containers -/

theorem object_effect {r : ObjectRef} (there : .object r ∈ h.holdings) : (c.effect h).object r =
    if Holding.ofValue? c.receiver = some (.object r) then (h.object r).change c.change
      else h.object r := by
  have inside : r.index < h.objects.size := Heap.object_mem_holdings.1 there
  split
  next addressed =>
    obtain ⟨receiver, change⟩ := c
    cases receiver <;> cases addressed
    simp [effect, Heap.object, Heap.modifyObject, inside, Array.getElem_modify]
  next apart => exact unchanged_effect (a := .new) apart

theorem function?_effect (r : FunctionRef) : (c.effect h).function? r =
    if Holding.ofValue? c.receiver = some (.function r) then (h.function? r).map (·.change c.change)
    else h.function? r := by
  split
  next addressed =>
    obtain ⟨receiver, change⟩ := c
    cases receiver <;> cases addressed
    simp [effect, Heap.function?, Heap.modifyFunction, Array.getElem?_modify]
  next apart => exact unchanged_effect (a := .new) apart

theorem elements_effect {r : ArrayRef} (there : .array r ∈ h.holdings) : (c.effect h).elements r =
    if Holding.ofValue? c.receiver = some (.array r) then c.fill h (h.elements r)
      else h.elements r := by
  have inside : r.index < h.arrays.size := Heap.array_mem_holdings.1 there
  split
  next addressed =>
    obtain ⟨receiver, change⟩ := c
    cases receiver <;> cases addressed
    simp [effect, Heap.elements, Heap.modifyArray, inside, Array.getElem_modify]
  next apart => exact unchanged_effect (a := .new) apart

theorem object_runAll (calls : List Call) {r : ObjectRef} (there : .object r ∈ s.heap.holdings) :
    (runAll calls s).heap.object r = { s.heap.object r with
      props := (changesOf (.object r) calls).foldl Change.apply (s.heap.object r).props } := by
  rw [← Object.foldl_change, ← changesOf_accepted (s := s) (by simp)]
  exact view_runAll (·.object r) _ (fun c _ h there => object_effect there) there

theorem function_runAll (calls : List Call) {r : FunctionRef} {f : FunctionObject}
    (there : s.heap.function? r = some f) :
    (runAll calls s).heap.function? r = some { f with
      props := (changesOf (.function r) calls).foldl Change.apply f.props } := by
  have holds : .function r ∈ s.heap.holdings := by
    have inside := (Array.getElem?_eq_some_iff.1 there).1
    exact List.mem_append_right _ (List.mem_map.2 ⟨r.index, List.mem_range.2 inside, rfl⟩)
  rw [← FunctionObject.foldl_change, ← there, ← changesOf_accepted (s := s) (by simp)]
  exact view_runAll (·.function? r) (fun f c => f.map (·.change c))
    (fun c _ h _ => function?_effect r) holds

theorem elements_runAll {r : ArrayRef} (indexed : ∀ c ∈ calls, c.Indexed)
    (there : .array r ∈ s.heap.holdings) :
    ((runAll calls s).heap.elements r).toList =
      (changesOf (.array r) (accepted calls s)).foldl
        (fun xs c => c.place xs) (s.heap.elements r).toList := by
  refine view_runAll (fun h => (h.elements r).toList) _ (fun c member h there => ?_) there
  simp only [elements_effect there]
  split
  next addressed =>
    obtain ⟨receiver, change⟩ := c
    cases receiver <;> cases addressed
    obtain ⟨i, spelled, -⟩ := indexed _ member
    simp [fill, index_ne_length spelled]
  next => rfl

/-- What a sequence of calls leaves of what there was. The properties that a container had at first
count as set in their order. A call that is refused leaves all as it was. -/
structure StoresKept (calls : List Call) (s : State) : Prop where
  objects : ∀ r, .object r ∈ s.heap.holdings →
    Change.Keeps (Change.ofTable (s.heap.object r).props ++ changesOf (.object r) calls)
      ((runAll calls s).heap.ownKeys (.object r)) ((runAll calls s).heap.get? (.object r)) ∧
    ((runAll calls s).heap.object r).prototype = (s.heap.object r).prototype
  functions : ∀ r f, s.heap.function? r = some f →
    Change.Keeps (Change.ofTable f.props ++ changesOf (.function r) calls)
      ((runAll calls s).heap.ownKeys (.function r)) ((runAll calls s).heap.get? (.function r)) ∧
    ∃ props, (runAll calls s).heap.function? r = some { f with props := props }
  arrays : ∀ r, .array r ∈ s.heap.holdings → ((runAll calls s).heap.elements r).toList =
    (changesOf (.array r) (accepted calls s)).foldl
      (fun xs c => c.place xs) (s.heap.elements r).toList
  others : ∀ x, (∀ c ∈ calls, Holding.ofValue? c.receiver ≠ some x) →
    Unchanged s.scopes (runAll calls s).scopes s.heap (runAll calls s).heap x
  rest : (runAll calls s).heap.holdings = s.heap.holdings ∧
    runAll calls s = { s with heap := (runAll calls s).heap }
  refused : ∀ (c : Call) (t : State), c.Refused t.heap → ∃ f, c.run t = .fault f t
  done : ∀ (c : Call) (t : State), ¬c.Refused t.heap → ∃ u, c.run t = .ok () u

theorem keeps_object {h' : Heap} {r : ObjectRef} {log : List (Change Value)}
    (props : (h'.object r).props = log.foldl Change.apply (h.object r).props) :
    Change.Keeps (Change.ofTable (h.object r).props ++ log) (h'.ownKeys (.object r))
      (h'.get? (.object r)) := by
  have keeps := Change.keeps_foldl (h.object r).props log
  rw [← props] at keeps
  exact keeps.reads fun _ _ _ => Heap.lookup?_own

theorem keeps_function {h' : Heap} {r : FunctionRef} {f g : FunctionObject}
    {log : List (Change Value)}
    (there : h'.function? r = some g) (props : g.props = log.foldl Change.apply f.props) :
    Change.Keeps (Change.ofTable f.props ++ log) (h'.ownKeys (.function r))
      (h'.get? (.function r)) := by
  have keeps := Change.keeps_foldl f.props log
  have keys : h'.ownKeys (.function r) = g.props.keys := by simp [Heap.ownKeys, there]
  rw [← props, ← keys] at keeps
  exact keeps.reads fun key _ v own => by simp [Heap.get?, there, FunctionObject.get?, own]

/-- Own properties are kept in the order in which they were set, and elements at their places. -/
theorem stores_kept (calls : List Call) (s : State) (indexed : ∀ c ∈ calls, c.Indexed) :
    StoresKept calls s where
  objects r there := by
    have object := object_runAll calls there
    exact ⟨keeps_object (by rw [object]), by rw [object]⟩
  functions r f there := by
    have function := function_runAll calls there
    exact ⟨keeps_function function rfl, _, function⟩
  arrays r there := elements_runAll indexed there
  others x apart := unchanged_runAll apart
  rest := by
    refine runAll_keeps
      (P := fun t => t.heap.holdings = s.heap.holdings ∧ t = { s with heap := t.heap })
      (fun c _ t before => ⟨(holdings_effect c t.heap).trans before.1, ?_⟩) ⟨rfl, rfl⟩
    exact congrArg (fun u : State => { u with heap := c.effect t.heap }) before.2
  refused c t refused := (c.run_cases t).elim (·.2) fun allowed => absurd refused allowed.1
  done c t allowed := (c.run_cases t).elim (fun refused => absurd refused.1 allowed) fun done =>
    ⟨_, done.2⟩

/-- A key that is deleted and set again comes last, and a refused place leaves an array as long as
it is. -/
theorem stores_kept_shuffled :
    let s : State :=
  { heap := { arrays := #[#[]], objects := #[{}] }, scopes := .new, realm := default }
    let x : Value := .object ⟨0⟩
    let xs : Value := .array ⟨0⟩
    let calls : List Call :=
      [⟨x, "a", some .null⟩, ⟨x, "b", some xs⟩, ⟨xs, "2", some x⟩, ⟨x, "a", none⟩,
      ⟨xs, "16777216", some x⟩, ⟨x, "b", some .null⟩, ⟨x, "a", some x⟩]
    (∀ c ∈ calls, c.Indexed) ∧ StoresKept calls s ∧ (runAll calls s).heap.ownKeys x = ["b", "a"] ∧
      (runAll calls s).heap.ownKeys xs = ["0", "1", "2"] := by
  intro s x xs calls
  have indexed : ∀ c ∈ calls, c.Indexed := by
    have two : arrayIndex? "2" = some 2 := by decide
    have far : arrayIndex? "16777216" = some 16777216 := by decide
    have apart : 2 ≠ maxIndex ∧ 16777216 ≠ maxIndex := by decide
    simp [calls, x, xs, Indexed, two, far, apart]
  exact ⟨indexed, stores_kept calls s indexed, by decide, by decide⟩

end Call

end Scriptlet
