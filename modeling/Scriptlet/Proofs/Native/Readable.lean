import Scriptlet.Native.Global
import Scriptlet.Proofs.Eval.Store

/-!
Reading what a value lists.

Five operations copy the own properties of a value, and take undefined where a key cannot be read. A
key that a value lists can always be read, even while properties of another value, or of the same
one, are set. Main statement: `listed_keys_read`.
-/

namespace Scriptlet

open Eval

theorem mapM_eq_some {α β : Type} {f : α → Option β} {g : α → β} {xs : List α}
    (found : ∀ x ∈ xs, f x = some (g x)) : xs.mapM f = some (xs.map g) := by
  induction xs with
  | nil => rfl
  | cons x rest ih =>
    rw [List.mapM_cons, found x List.mem_cons_self,
      ih fun y member => found y (List.mem_cons_of_mem _ member)]
    rfl

namespace Heap

variable {h : Heap} {v : Value} {key : String}

/-- The own properties of a value, if each key that it lists can be read. -/
def foundEntries? (h : Heap) (v : Value) : Option (List (String × Value)) :=
  (h.ownKeys v).mapM fun k => (h.get? v k).map (k, ·)

theorem foundEntries?_eq (fits : h.Indexable v) : h.foundEntries? v = some (h.ownEntries v) := by
  refine mapM_eq_some fun k listed => ?_
  obtain ⟨w, read⟩ := Option.isSome_iff_exists.1 (isSome_get?_of_mem_ownKeys fits listed)
  simp [read]

/-! ### Writing while reading -/

theorem elements_of_absent {r : ArrayRef} (absent : .array r ∉ h.holdings) :
    h.elements r = #[] := by
  have outside : h.arrays.size ≤ r.index := by
    by_contra inside
    exact absent (by simpa [holdings] using ⟨r.index, Nat.lt_of_not_le inside, rfl⟩)
  simp [elements, Array.getElem?_eq_none outside]

theorem mem_holdings_of_listed {key : String} {x : Holding} (listed : key ∈ h.ownKeys v)
    (refers : Holding.ofValue? v = some x) : x ∈ h.holdings := by
  cases v with
  | array r =>
    cases refers
    by_contra absent
    simp [ownKeys, elements_of_absent absent] at listed
  | object r =>
    cases refers
    have inside : r.index < h.objects.size := by
      by_contra absent
      simp [ownKeys, object, Array.getElem?_eq_none (Nat.le_of_not_lt absent), Table.keys] at listed
    simpa [holdings] using ⟨r.index, inside, rfl⟩
  | function r =>
    cases refers
    have inside : r.index < h.functions.size := by
      by_contra absent
      simp [ownKeys, function?, Array.getElem?_eq_none (Nat.le_of_not_lt absent)] at listed
    simpa [holdings] using ⟨r.index, inside, rfl⟩
  | _ => cases refers

end Heap

namespace Call

variable {c : Call} {h : Heap} {v w : Value}

theorem keys_apply {t : Table Value} {change : Change Value} (sets : change.value? = some w)
    (there : change.key ∈ t.keys) : (change.apply t).keys = t.keys := by
  simp [Change.apply, sets, Table.keys_insert, there]

/-- A value lists the same keys after one of them is set, on whatever value. -/
theorem ownKeys_effect (sets : c.change.value? = some w) (fits : h.Indexable v)
    (listed : c.change.key ∈ h.ownKeys v) : (c.effect h).ownKeys v = h.ownKeys v := by
  cases v with
  | object r =>
    simp only [Heap.ownKeys, object_effect (Heap.mem_holdings_of_listed listed rfl)]
    split
    · exact keys_apply sets listed
    · rfl
  | function r =>
    simp only [Heap.ownKeys, function?_effect]
    split
    · cases found : h.function? r with
      | none => rfl
      | some f => exact keys_apply sets (by simpa [Heap.ownKeys, found] using listed)
    · rfl
  | array r =>
    obtain ⟨i, inside, spelled⟩ := Heap.exists_index_of_listed listed fits
    simp only [Heap.ownKeys, elements_effect (Heap.mem_holdings_of_listed listed rfl)]
    split
    · simp [fill, index_ne_length spelled, Change.place, spelled, sets, inside]
    · rfl
  | _ => rfl

theorem size_fill_le {r : ArrayRef} (addressed : Holding.ofValue? c.receiver = some (.array r))
    (allowed : ¬c.Refused h) :
    (c.fill h (h.elements r)).size ≤ max (h.elements r).size Value.maxArrayLength := by
  obtain ⟨receiver, key, value?⟩ := c
  cases receiver <;> cases addressed
  unfold fill
  by_cases length : key = "length"
  · rw [if_pos length]
    split
    next n asked =>
      obtain ⟨v, -, asked⟩ := Option.bind_eq_some_iff.1 asked
      rw [Contract.size_resize]
      exact (Contract.le_of_lengthOf? asked).trans (Nat.le_max_right ..)
    next => exact Nat.le_max_left ..
  · rw [if_neg length, List.size_toArray]
    unfold Change.place
    split
    next i v spelled sets =>
      split
      next => simp
      next beyond =>
        rw [Array.length_toList] at beyond
        have short : i < Value.maxArrayLength := by
          by_contra long
          cases sets
          exact allowed
            (by simpa [Refused, Heap.Refuses, length, spelled] using ⟨by omega, by omega⟩)
        simp only [List.length_append, List.length_replicate, List.length_singleton,
          Array.length_toList]
        omega
    next => simp
    next => simp

/-- No value gets more places than a key can tell. -/
theorem indexable_effect (allowed : ¬c.Refused h) (fits : h.Indexable v) :
    (c.effect h).Indexable v := by
  cases v with
  | array r =>
    by_cases there : .array r ∈ h.holdings
    · rw [Heap.Indexable, elements_effect there]
      split
      next addressed =>
        have small : Value.maxArrayLength ≤ maxIndex + 1 := by decide
        exact (size_fill_le addressed allowed).trans (max_le fits small)
      next => exact fits
    · rw [Heap.Indexable, Heap.elements_of_absent ((holdings_effect c h).symm ▸ there)]
      exact Nat.zero_le _
  | string s => exact fits
  | _ => trivial

end Call

namespace Native

/-- Goes on with what an outcome leaves, if it is a good one. -/
def followed (next : State → Option (Outcome Unit)) : Outcome Unit → Option (Outcome Unit)
  | .ok _ t => next t
  | o => some o

/-- Sets properties of the target to those of a source. There is no outcome if one of them cannot be
read. -/
def assignFound? (target source : Value) : List String → State → Option (Outcome Unit)
  | [], s => some (.ok () s)
  | key :: rest, s =>
    (s.heap.get? source key).bind fun v =>
      followed (assignFound? target source rest) (setProperty target key v s)

/-- Sets properties of the target to those of all sources. -/
def assignAllFound? (target : Value) : List Value → State → Option (Outcome Unit)
  | [], s => some (.ok () s)
  | source :: rest, s =>
    if source.isNullish then assignAllFound? target rest s
    else (assignFound? target source (s.heap.ownKeys source) s).bind
      (followed (assignAllFound? target rest))

variable {target source : Value} {s : State}

theorem assignKeys_cons (target source : Value) (key : String) (rest : List String) (s : State) :
    assignKeys target source (key :: rest) s =
      match setProperty target key ((s.heap.get? source key).getD .undefined) s with
      | .ok _ t => assignKeys target source rest t
      | .fault f t => .fault f t
      | .exhausted t => .exhausted t := by
  simp only [assignKeys, Bind.bind, Eval.bind, Eval.gets]
  cases setProperty target key ((s.heap.get? source key).getD .undefined) s <;> rfl

theorem assignFound?_eq {keys : List String} (fits : s.heap.Indexable source)
    (listed : ∀ k ∈ keys, k ∈ s.heap.ownKeys source) :
    assignFound? target source keys s = some (assignKeys target source keys s) := by
  induction keys generalizing s with
  | nil => rfl
  | cons key rest ih =>
    obtain ⟨v, read⟩ := Option.isSome_iff_exists.1
      (Heap.isSome_get?_of_mem_ownKeys fits (listed key List.mem_cons_self))
    rw [assignKeys_cons, assignFound?, read, Option.bind_some, Option.getD_some]
    rcases Call.set_cases target key v s with ⟨f, fails⟩ | ⟨allowed, done⟩
    · simp [fails, followed]
    · simp only [done, followed]
      -- the target may be the source, but a key that the source lists adds none to it
      have keys :=
        Call.ownKeys_effect (c := ⟨target, key, some v⟩) rfl fits (listed key List.mem_cons_self)
      refine ih (Call.indexable_effect allowed fits) fun k member => ?_
      exact keys ▸ listed k (List.mem_cons_of_mem _ member)

theorem indexable_assignKeys {keys : List String} {v : Value} {t : State}
    (done : assignKeys target source keys s = .ok () t) (fits : s.heap.Indexable v) :
    t.heap.Indexable v := by
  induction keys generalizing s with
  | nil =>
    cases done
    exact fits
  | cons key rest ih =>
    rw [assignKeys_cons] at done
    rcases Call.set_cases target key ((s.heap.get? source key).getD .undefined) s with
      ⟨f, fails⟩ | ⟨allowed, set⟩
    · simp [fails] at done
    · rw [set] at done
      exact ih done (Call.indexable_effect allowed fits)

theorem assignAllFound?_eq {sources : List Value} (fits : ∀ v ∈ sources, s.heap.Indexable v) :
    assignAllFound? target sources s = some (assignAll target sources s) := by
  induction sources generalizing s with
  | nil => rfl
  | cons source rest ih =>
    have rest_fits : ∀ v ∈ rest, s.heap.Indexable v :=
      fun v member => fits v (List.mem_cons_of_mem _ member)
    rw [assignAllFound?]
    split
    next nullish => simpa [assignAll, nullish] using ih rest_fits
    next stands =>
      have steps : assignAll target (source :: rest) s =
          (do assignKeys target source (s.heap.ownKeys source); assignAll target rest : Eval Unit)
            s := by
        simp [assignAll, stands, Bind.bind, Eval.bind, Eval.gets]
      rw [steps, assignFound?_eq (fits source List.mem_cons_self) fun _ listed => listed,
        Option.bind_some]
      cases done : assignKeys target source (s.heap.ownKeys source) s with
      | ok u t =>
        simp only [Bind.bind, Eval.bind, done, followed]
        exact ih fun v member => indexable_assignKeys done (rest_fits v member)
      | fault f t => simp [Bind.bind, Eval.bind, done, followed]
      | exhausted t => simp [Bind.bind, Eval.bind, done, followed]

/-- Keys stand for places in one way, and the operations that copy own properties read all of
them. -/
structure ListedKeysRead : Prop where
  index : ∀ key i, arrayIndex? key = some i ↔ key = indexKey i ∧ i ≤ maxIndex
  apart : ∀ key other i, arrayIndex? key = some i → arrayIndex? other = some i → key = other
  read : ∀ (h : Heap) v, h.Indexable v → ∀ key ∈ h.ownKeys v, (h.get? v key).isSome
  spread : ∀ (r : Recursion) env props e rest s source t,
    r.expr e env s = .ok source t → t.heap.Indexable source →
    ∃ entries, t.heap.foundEntries? source = some entries ∧
      members r env props (.spread e :: rest) s =
        members r env (entries.foldl (fun t e => t.insert e.1 e.2) props) rest t
  values : ∀ (r : Recursion) receiver args s,
    (argument args 0).isNullish = false → s.heap.Indexable (argument args 0) →
    ∃ entries, s.heap.foundEntries? (argument args 0) = some entries ∧
      globalFunction r .values receiver args s = newArray (entries.map (·.2)).toArray s
  entries : ∀ (r : Recursion) receiver args s,
    (argument args 0).isNullish = false → s.heap.Indexable (argument args 0) →
    ∃ entries, s.heap.foundEntries? (argument args 0) = some entries ∧
      globalFunction r .entries receiver args s = (do newArray (← pairs #[] entries) : Eval Value) s
  assign : ∀ (r : Recursion) receiver args s,
    (argument args 0).isNullish = false → (∀ v ∈ args.tail, s.heap.Indexable v) →
    ∃ o, assignAllFound? (argument args 0) args.tail s = some o ∧
      globalFunction r .assign receiver args s =
        match o with
        | .ok _ t => .ok (argument args 0) t
        | .fault f t => .fault f t
        | .exhausted t => .exhausted t
  rest : ∀ (r : Recursion) mode span properties target v env s used t,
    v.isNullish = false → bindProperties r mode v env [] properties s = .ok used t →
      t.heap.Indexable v →
    ∃ entries, t.heap.foundEntries? v = some entries ∧
      bindPattern r mode (.object span properties (some target)) v env s =
        (do
          let o ← newObject { props := .ofList (entries.filter fun e => !used.contains e.1) }
          r.bind mode target (.object o) env : Eval Unit) t

theorem objectArgument_eq {f : GlobalFunction} {args : List Value}
    (stands : (argument args 0).isNullish = false) :
    objectArgument f args s = .ok (argument args 0) s := by
  unfold objectArgument
  generalize argument args 0 = v at stands
  cases v with
  | undefined | null => cases stands
  | _ => rfl

theorem listed_keys_read : ListedKeysRead where
  index _ _ := arrayIndex?_eq_some_iff
  apart _ _ _ := arrayIndex?_injective
  read _ _ fits _ := Heap.isSome_get?_of_mem_ownKeys fits
  spread r env props e rest s source t given fits := by
    refine ⟨_, Heap.foundEntries?_eq fits, ?_⟩
    simp [members, Bind.bind, Eval.bind, Eval.gets, given]
  values r receiver args s stands fits := by
    refine ⟨_, Heap.foundEntries?_eq fits, ?_⟩
    simp [globalFunction, Bind.bind, Eval.bind, Eval.gets, objectArgument_eq stands]
  entries r receiver args s stands fits := by
    refine ⟨_, Heap.foundEntries?_eq fits, ?_⟩
    simp [globalFunction, Bind.bind, Eval.bind, Eval.gets, objectArgument_eq stands]
  assign r receiver args s stands fits := by
    refine ⟨_, assignAllFound?_eq fits, ?_⟩
    simp only [globalFunction, Bind.bind, Eval.bind, objectArgument_eq stands]
    cases assignAll (argument args 0) args.tail s <;> rfl
  rest r mode span properties target v env s used t stands bound fits := by
    refine ⟨_, Heap.foundEntries?_eq fits, ?_⟩
    simp [bindPattern, Bind.bind, Eval.bind, Eval.gets, stands, bound]

/-- An array is assigned to itself, and then a text to it. -/
theorem listed_keys_read_aliased :
    let s : State := { heap := { arrays := #[#[.null, .null]] }, scopes := .new, realm := default }
    let xs : Value := .array ⟨0⟩
    let word : Value := .string "né"
    (s.heap.Indexable xs ∧ s.heap.Indexable word) ∧ s.heap.ownKeys xs = ["0", "1"] ∧
      (s.heap.get? xs "1").isSome ∧ ∃ o, assignAllFound? xs [xs, word] s = some o := by
  intro s xs word
  have room : 2 ≤ maxIndex + 1 := by decide
  have fits : s.heap.Indexable xs ∧ s.heap.Indexable word := ⟨room, room⟩
  have listed : s.heap.ownKeys xs = ["0", "1"] := by decide
  have found :=
    listed_keys_read.assign (recursion 0) .undefined [xs, xs, word] s rfl (by simpa using fits)
  exact ⟨fits, listed, listed_keys_read.read s.heap xs fits.1 "1" (by simp [listed]),
    found.imp fun _ => And.left⟩

end Native

end Scriptlet
