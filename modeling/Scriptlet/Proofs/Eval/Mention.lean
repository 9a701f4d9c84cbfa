import Mathlib.Data.Set.Basic
import Scriptlet.Eval.Recursion
import Scriptlet.Proofs.Scope.Edit

/-!
The objects that are mentioned.

A value mentions the object that it refers to, and whatever holds values mentions what these do. A
computation only knows the objects that were mentioned to it: those in its arguments, those in what
it reads from the state, and those in the results of what it runs.
-/

namespace Scriptlet

/-- What can refer to objects. -/
class Mentions (α : Type) where
  mentions : α → Set ObjectRef

open Mentions (mentions)

/-! ### Data -/

namespace Mentions

variable {α β : Type}

/-- Most data do not refer to objects. -/
instance (priority := low) none : Mentions α := ⟨fun _ => ∅⟩

instance : Mentions ObjectRef := ⟨fun r => {r}⟩

instance : Mentions Value where
  mentions
    | .object r => {r}
    | _ => ∅

instance [Mentions α] : Mentions (List α) := ⟨fun list => {r | ∃ a ∈ list, r ∈ mentions a}⟩

instance [Mentions α] : Mentions (Array α) := ⟨fun array => {r | ∃ a ∈ array, r ∈ mentions a}⟩

instance [Mentions α] : Mentions (Option α) := ⟨fun found => {r | ∃ a ∈ found, r ∈ mentions a}⟩

instance [Mentions α] [Mentions β] : Mentions (α × β) :=
  ⟨fun pair => mentions pair.1 ∪ mentions pair.2⟩

instance [Mentions α] [Mentions β] : Mentions (Except α β) where
  mentions
    | .error a => mentions a
    | .ok b => mentions b

instance [Mentions α] : Mentions (Table α) := ⟨fun table => mentions table.values⟩

instance : Mentions Object := ⟨fun o => mentions o.props ∪ mentions o.prototype⟩

instance : Mentions Native where
  mentions
    | .error prototype => {prototype}
    | .bound _ receiver leading => mentions receiver ∪ mentions leading
    | _ => ∅

instance : Mentions Callable where
  mentions
    | .closure _ _ _ => ∅
    | .native _ op => mentions op

instance : Mentions FunctionObject := ⟨fun f => mentions f.callable ∪ mentions f.props⟩

instance : Mentions Heap :=
  ⟨fun h => mentions h.arrays ∪ mentions h.objects ∪ mentions h.functions⟩

instance : Mentions Binding := ⟨fun b => mentions b.value⟩

instance : Mentions Record := ⟨fun r => mentions r.bindings⟩

instance : Mentions Arena := ⟨fun a => mentions a.records⟩

instance : Mentions State := ⟨fun s => mentions s.heap ∪ mentions s.scopes⟩

instance : Mentions Completion where
  mentions
    | .normal v | .return_ v => mentions v
    | .break_ | .continue_ => ∅

instance : Mentions Cause where
  mentions
    | .thrown v => mentions v
    | _ => ∅

instance : Mentions Fault := ⟨fun f => mentions f.cause⟩

/-- Data of a type that does not refer to objects. -/
class Plain (α : Type) [Mentions α] : Prop where
  mentions_eq : ∀ a : α, mentions a = ∅

instance : @Plain α none := @Plain.mk α none fun _ => rfl

variable [Mentions α] [Mentions β]

instance [Plain α] : Plain (List α) where
  mentions_eq list := by simp [mentions, Plain.mentions_eq]

instance [Plain α] : Plain (Option α) where
  mentions_eq found := by simp [mentions, Plain.mentions_eq]

instance [Plain α] : Plain (Array α) where
  mentions_eq array := by simp [mentions, Plain.mentions_eq]

instance [Plain α] [Plain β] : Plain (α × β) where
  mentions_eq pair := by simp [mentions, Plain.mentions_eq]

instance [Plain α] [Plain β] : Plain (Except α β) where
  mentions_eq result := by
    cases result with
    | error a => exact Plain.mentions_eq a
    | ok b => exact Plain.mentions_eq b

end Mentions

/-! ### Knowledge -/

/-- The objects that a computation may refer to. -/
abbrev Knowledge : Type :=
  Set ObjectRef

/-- What there is once something has been told. -/
def Knowledge.plus {α : Type} [Mentions α] (k : Knowledge) (a : α) : Knowledge :=
  k ∪ mentions a

/-- Only known objects are mentioned. -/
class Known (k : Knowledge) {α : Type} [Mentions α] (a : α) : Prop where
  subset : mentions a ⊆ k

theorem Knowledge.subset_plus {α : Type} [Mentions α] {k : Knowledge} {a : α} : k ⊆ k.plus a :=
  Set.subset_union_left

theorem Knowledge.plus_mono {α : Type} [Mentions α] {k told : Knowledge} {a : α} (more : k ⊆ told) :
    k.plus a ⊆ told.plus a :=
  Set.union_subset_union_left _ more

theorem Knowledge.plus_subset {α : Type} [Mentions α] {k told : Knowledge} {a : α} (more : k ⊆ told)
    (known : Known told a) : k.plus a ⊆ told :=
  Set.union_subset more known.subset

namespace Known

variable {k : Knowledge} {α β : Type} [Mentions α] [Mentions β] {a : α} {b : β}

/-- What mentions less is known too. -/
theorem less (known : Known k a) (less : mentions b ⊆ mentions a) : Known k b :=
  ⟨less.trans known.subset⟩

theorem more {told : Knowledge} (known : Known k a) (more : k ⊆ told) : Known told a :=
  ⟨known.subset.trans more⟩

instance (priority := low) plain [plain : Mentions.Plain α] : Known k a :=
  ⟨plain.mentions_eq a ▸ Set.empty_subset k⟩

instance told : Known (k.plus a) a :=
  ⟨Set.subset_union_right⟩

instance everything : Known Set.univ a :=
  ⟨Set.subset_univ _⟩

instance before [known : Known k a] : Known (k.plus b) a :=
  known.more Knowledge.subset_plus

/-! ### Values -/

instance undefined : Known k Value.undefined := ⟨Set.empty_subset k⟩

instance null : Known k Value.null := ⟨Set.empty_subset k⟩

instance boolean (b : Bool) : Known k (Value.boolean b) := ⟨Set.empty_subset k⟩

instance number (x : Float) : Known k (Value.number x) := ⟨Set.empty_subset k⟩

instance string (s : String) : Known k (Value.string s) := ⟨Set.empty_subset k⟩

instance array (r : ArrayRef) : Known k (Value.array r) := ⟨Set.empty_subset k⟩

instance function (r : FunctionRef) : Known k (Value.function r) := ⟨Set.empty_subset k⟩

instance object (r : ObjectRef) [known : Known k r] : Known k (Value.object r) := ⟨known.subset⟩

/-! ### Causes of faults -/

instance unbound (name : String) : Known k (Cause.unbound name) := ⟨Set.empty_subset k⟩

instance type (f : TypeFault) : Known k (Cause.type f) := ⟨Set.empty_subset k⟩

instance range (f : RangeFault) : Known k (Cause.range f) := ⟨Set.empty_subset k⟩

instance thrown (v : Value) [known : Known k v] : Known k (Cause.thrown v) := ⟨known.subset⟩

theorem of_not_thrown {c : Cause} (other : c.kind ≠ .thrown) : Known k c := by
  cases c with
  | thrown => exact absurd rfl other
  | unbound | redeclared | constantAssigned | type | range | unsupported | parse =>
    exact ⟨Set.empty_subset k⟩

theorem located {f : Fault} (known : Known k f) (span : Span) : Known k (f.located span) :=
  known.less (congrArg mentions (f.cause_located span)).subset

/-! ### Completions of statements -/

instance normal (v : Value) [known : Known k v] : Known k (Completion.normal v) := ⟨known.subset⟩

instance return_ (v : Value) [known : Known k v] : Known k (Completion.return_ v) := ⟨known.subset⟩

instance break_ : Known k Completion.break_ := ⟨Set.empty_subset k⟩

instance continue_ : Known k Completion.continue_ := ⟨Set.empty_subset k⟩

instance empty : Known k Completion.empty := normal .undefined

instance toldNormal (v : Value) : Known (k.plus (Completion.normal v)) v := ⟨told.subset⟩

instance toldReturn (v : Value) : Known (k.plus (Completion.return_ v)) v := ⟨told.subset⟩

/-! ### What holds values -/

theorem cons_iff {list : List α} : Known k (a :: list) ↔ Known k a ∧ Known k list := by
  constructor
  · intro known
    exact ⟨⟨fun r member => known.subset ⟨a, List.mem_cons_self, member⟩⟩,
      ⟨fun r ⟨b, there, member⟩ => known.subset ⟨b, List.mem_cons_of_mem _ there, member⟩⟩⟩
  · rintro ⟨first, rest⟩
    refine ⟨fun r ⟨b, there, member⟩ => ?_⟩
    rcases List.mem_cons.1 there with rfl | there
    · exact first.subset member
    · exact rest.subset ⟨b, there, member⟩

instance nil : Known k ([] : List α) := ⟨by rintro r ⟨_, ⟨⟩, _⟩⟩

instance cons {list : List α} [first : Known k a] [rest : Known k list] : Known k (a :: list) :=
  cons_iff.2 ⟨first, rest⟩

/-- A list of some of the members of a known one. -/
theorem among {some_ list : List α} (known : Known k list) (among : ∀ a ∈ some_, a ∈ list) :
    Known k some_ :=
  known.less fun _ ⟨a, there, member⟩ => ⟨a, among a there, member⟩

instance tail {list : List α} [known : Known k list] : Known k list.tail :=
  known.among fun _ => List.mem_of_mem_tail

instance drop {list : List α} {n : Nat} [known : Known k list] : Known k (list.drop n) :=
  known.among fun _ => List.mem_of_mem_drop

instance take {list : List α} {n : Nat} [known : Known k list] : Known k (list.take n) :=
  known.among fun _ => List.mem_of_mem_take

instance append {first second : List α} [one : Known k first] [two : Known k second] :
    Known k (first ++ second) := by
  refine ⟨fun r ⟨a, there, member⟩ => ?_⟩
  rcases List.mem_append.1 there with there | there
  · exact one.subset ⟨a, there, member⟩
  · exact two.subset ⟨a, there, member⟩

instance reverse {list : List α} [known : Known k list] : Known k list.reverse :=
  known.among fun _ => List.mem_reverse.1

instance filter {list : List α} {p : α → Bool} [known : Known k list] : Known k (list.filter p) :=
  known.among fun _ there => (List.mem_filter.1 there).1

theorem of_mem {list : List α} (known : Known k list) (there : a ∈ list) : Known k a :=
  known.less fun _ member => ⟨a, there, member⟩

instance headD {list : List α} [known : Known k list] [other : Known k a] :
    Known k (list.headD a) := by
  cases list with
  | nil => exact other
  | cons b rest => exact known.of_mem List.mem_cons_self

instance getD {list : List α} {n : Nat} [known : Known k list] [other : Known k a] :
    Known k (list.getD n a) := by
  rw [List.getD_eq_getElem?_getD]
  cases found : list[n]? with
  | none => exact other
  | some b => exact known.of_mem (List.mem_of_getElem? found)

instance toArray {list : List α} [known : Known k list] : Known k list.toArray :=
  known.less fun _ ⟨a, there, member⟩ => ⟨a, List.mem_toArray.1 there, member⟩

instance toList {xs : Array α} [known : Known k xs] : Known k xs.toList :=
  known.less fun _ ⟨a, there, member⟩ => ⟨a, Array.mem_toList_iff.1 there, member⟩

instance emptyArray : Known k (#[] : Array α) := ⟨by simp [mentions]⟩

instance push {xs : Array α} [known : Known k xs] [last : Known k a] : Known k (xs.push a) := by
  refine ⟨fun r ⟨b, there, member⟩ => ?_⟩
  rcases Array.mem_push.1 there with there | rfl
  · exact known.subset ⟨b, there, member⟩
  · exact last.subset member

instance appendArray {xs ys : Array α} [one : Known k xs] [two : Known k ys] :
    Known k (xs ++ ys) := by
  refine ⟨fun r ⟨a, there, member⟩ => ?_⟩
  rcases Array.mem_append.1 there with there | there
  · exact one.subset ⟨a, there, member⟩
  · exact two.subset ⟨a, there, member⟩

instance none : Known k (none : Option α) := ⟨by rintro r ⟨_, ⟨⟩, _⟩⟩

theorem some_iff : Known k (some a) ↔ Known k a := by
  constructor
  · exact fun known => known.less fun _ member => ⟨a, rfl, member⟩
  · refine fun known => known.less ?_
    rintro _ ⟨_, ⟨⟩, member⟩
    exact member

theorem of_some {found : Option α} [known : Known k found] (there : found = some a) : Known k a :=
  some_iff.1 (there ▸ known)

instance toldSome : Known (k.plus (some a)) a := some_iff.1 told

instance some_ [known : Known k a] : Known k (some a) := some_iff.2 known

instance optionGetD {found : Option α} [known : Known k found] [other : Known k a] :
    Known k (found.getD a) := by
  cases found with
  | none => exact other
  | some b => exact some_iff.1 known

instance optionToList {found : Option α} [known : Known k found] : Known k found.toList := by
  cases found with
  | none => exact nil
  | some b => exact @cons _ _ _ _ _ (some_iff.1 known) nil

theorem pair_iff : Known k (a, b) ↔ Known k a ∧ Known k b := by
  constructor
  · exact fun known => ⟨known.less Set.subset_union_left, known.less Set.subset_union_right⟩
  · exact fun ⟨first, second⟩ => ⟨Set.union_subset first.subset second.subset⟩

instance first {pair : α × β} [known : Known k pair] : Known k pair.1 := (pair_iff.1 known).1

instance second {pair : α × β} [known : Known k pair] : Known k pair.2 := (pair_iff.1 known).2

omit [Mentions α] in
instance optionMap {found : Option α} {f : α → β} [known : ∀ a, Known k (f a)] :
    Known k (found.map f) := by
  cases found with
  | none => exact none
  | some a => exact some_iff.2 (known a)

instance bound {found : Option (ScopeId × Binding)} [known : Known k found] :
    Known k (found.map (·.2.value)) := by
  cases found with
  | none => exact none
  | some found => exact some_iff.2 ⟨(pair_iff.1 (some_iff.1 known)).2.subset⟩

instance optionSecond {found : Option (β × α)} [known : Known k found] :
    Known k (found.map (·.2)) := by
  cases found with
  | none => exact none
  | some found => exact some_iff.2 (pair_iff.1 (some_iff.1 known)).2

instance listSecond {list : List (β × α)} [known : Known k list] : Known k (list.map (·.2)) := by
  refine known.less fun r ⟨a, there, member⟩ => ?_
  obtain ⟨pair, inside, rfl⟩ := List.mem_map.1 there
  exact ⟨pair, inside, .inr member⟩

instance pair [first : Known k a] [second : Known k b] :
    Known k (a, b) := pair_iff.2 ⟨first, second⟩

instance ok [known : Known k b] : Known k (Except.ok b : Except α β) := ⟨known.subset⟩

instance error [known : Known k a] : Known k (Except.error a : Except α β) := ⟨known.subset⟩

instance toldOk : Known (k.plus (Except.ok b : Except α β)) b := ⟨told.subset⟩

instance toldError : Known (k.plus (Except.error a : Except α β)) a := ⟨told.subset⟩

instance ite {c : Prop} [Decidable c] {a' : α} [yes : Known k a] [no : Known k a'] :
    Known k (if c then a else a') := by
  split
  · exact yes
  · exact no

omit [Mentions α] in
instance listMap {list : List α} {f : α → β} [known : ∀ a, Known k (f a)] :
    Known k (list.map f) := by
  refine ⟨fun r ⟨b, there, member⟩ => ?_⟩
  obtain ⟨a, -, rfl⟩ := List.mem_map.1 there
  exact (known a).subset member

/-! ### What host functions see -/

instance hostValue {v : HostValue} {seen : List Value} [known : Known k seen] :
    Known k (v.among seen) := by
  cases v with
  | seen place => exact getD
  | undefined | null | boolean | number | string => exact ⟨Set.empty_subset k⟩

/-- What is thrown is known with the fault. -/
theorem thrownValue {f : Fault} (known : Known k f) : Known k f.cause.thrown? := by
  obtain ⟨cause, span⟩ := f
  cases cause with
  | thrown v => exact some_iff.2 ⟨known.subset⟩
  | unbound | redeclared | constantAssigned | type | range | unsupported | parse => exact none

/-! ### Arrays -/

theorem of_mem_array {xs : Array α} (known : Known k xs) (there : a ∈ xs) : Known k a :=
  known.less fun _ member => ⟨a, there, member⟩

/-- An array of some of the elements of a known one. -/
theorem amongArray {some_ xs : Array α} (known : Known k xs) (among : ∀ a ∈ some_, a ∈ xs) :
    Known k some_ :=
  known.less fun _ ⟨a, there, member⟩ => ⟨a, among a there, member⟩

instance getElem? {xs : Array α} {n : Nat} [known : Known k xs] : Known k xs[n]? := by
  cases found : xs[n]? with
  | none => exact none
  | some a => exact some_iff.2 (known.of_mem_array (Array.mem_of_getElem? found))

instance back? {xs : Array α} [known : Known k xs] : Known k xs.back? :=
  getElem?

instance pop {xs : Array α} [known : Known k xs] : Known k xs.pop :=
  known.amongArray fun a there => by
    rw [← Array.mem_toList_iff, Array.toList_pop] at there
    exact Array.mem_toList_iff.1 ((List.dropLast_subset _) there)

instance extract {xs : Array α} {start stop : Nat} [known : Known k xs] :
    Known k (xs.extract start stop) := by
  refine known.amongArray fun a there => ?_
  obtain ⟨i, inside, rfl⟩ := Array.mem_extract_iff_getElem.1 there
  exact Array.getElem_mem (by omega)

instance reverseArray {xs : Array α} [known : Known k xs] : Known k xs.reverse :=
  known.amongArray fun _ => Array.mem_reverse.1

instance setIfInBounds {xs : Array α} {n : Nat} [known : Known k xs] [one : Known k a] :
    Known k (xs.setIfInBounds n a) := by
  refine ⟨fun r ⟨b, there, member⟩ => ?_⟩
  rcases Array.mem_or_eq_of_mem_setIfInBounds there with there | rfl
  · exact known.subset ⟨b, there, member⟩
  · exact one.subset member

instance replicate {n : Nat} [known : Known k a] : Known k (Array.replicate n a) :=
  ⟨fun _ ⟨_, there, member⟩ => known.subset (Array.eq_of_mem_replicate there ▸ member)⟩

instance shrink {xs : Array α} {n : Nat} [known : Known k xs] : Known k (xs.shrink n) := by
  rw [Array.shrink_eq_take]
  exact extract

instance appendList {xs : Array α} {list : List α} [one : Known k xs] [two : Known k list] :
    Known k (xs ++ list) := by
  refine ⟨fun r ⟨a, there, member⟩ => ?_⟩
  rw [← Array.mem_toList_iff, Array.toList_appendList, List.mem_append] at there
  rcases there with there | there
  · exact one.subset ⟨a, Array.mem_toList_iff.1 there, member⟩
  · exact two.subset ⟨a, there, member⟩

/-! ### Tables -/

instance emptyTable : Known k ({} : Table α) := ⟨by simp [mentions, Table.values]⟩

instance get? {t : Table α} {key : String} [known : Known k t] : Known k (t.get? key) := by
  cases found : t.get? key with
  | none => exact none
  | some a =>
    exact some_iff.2 (known.less fun _ member => ⟨a, Table.mem_values_of_get? found, member⟩)

instance insert {t : Table α} {key : String} [known : Known k t] [one : Known k a] :
    Known k (t.insert key a) := by
  refine ⟨fun r ⟨b, there, member⟩ => ?_⟩
  rcases Table.of_mem_values_insert there with rfl | there
  · exact one.subset member
  · exact known.subset ⟨b, there, member⟩

instance erase {t : Table α} {key : String} [known : Known k t] : Known k (t.erase key) := by
  exact known.less fun _ ⟨b, there, member⟩ => ⟨b, Table.mem_values_of_mem_erase there, member⟩

instance foldl_insert {entries : List (String × α)} {t : Table α} [known : Known k t]
    [more : Known k entries] : Known k (entries.foldl (fun t e => t.insert e.1 e.2) t) := by
  induction entries generalizing t more with
  | nil => exact known
  | cons e rest ih =>
    obtain ⟨first, rest⟩ := cons_iff.1 more
    have one := (pair_iff.1 first).2
    exact ih

instance ofList {entries : List (String × α)} [Known k entries] : Known k (Table.ofList entries) :=
  foldl_insert

/-! ### Objects and functions -/

instance newObject {props : Table Value} {prototype : Option ObjectRef} [one : Known k props]
    [two : Known k prototype] : Known k (Object.mk props prototype) :=
  ⟨Set.union_subset one.subset two.subset⟩

instance boundFunction {target : FunctionRef} {receiver : Value} {leading : List Value}
    [one : Known k receiver] [two : Known k leading] :
    Known k (Native.bound target receiver leading) :=
  ⟨Set.union_subset one.subset two.subset⟩

instance props {o : Object} [known : Known k o] : Known k o.props :=
  known.less Set.subset_union_left

instance prototype {o : Object} [known : Known k o] : Known k o.prototype :=
  known.less Set.subset_union_right

instance functionProps {f : FunctionObject} [known : Known k f] : Known k f.props :=
  known.less Set.subset_union_right

instance callable {f : FunctionObject} [known : Known k f] : Known k f.callable :=
  known.less Set.subset_union_left

/-! ### What a state answers -/

instance heap {s : State} [known : Known k s] : Known k s.heap :=
  known.less Set.subset_union_left

instance scopes {s : State} [known : Known k s] : Known k s.scopes :=
  known.less Set.subset_union_right

instance ownOfFunction {f : FunctionObject} {key : String} [known : Known k f] :
    Known k (f.get? key) := by
  unfold FunctionObject.get?
  split
  · rename_i v found
    rw [← found]
    infer_instance
  · infer_instance

section Heap

variable {h : Heap} [known : Known k h]
include known

instance elements {r : ArrayRef} : Known k (h.elements r) := by
  have arrays : Known k h.arrays :=
    known.less (Set.subset_union_left.trans Set.subset_union_left)
  exact optionGetD

instance objectAt {r : ObjectRef} : Known k (h.object r) := by
  have objects : Known k h.objects :=
    known.less (Set.subset_union_right.trans Set.subset_union_left)
  exact optionGetD

instance function? {r : FunctionRef} : Known k (h.function? r) := by
  have functions : Known k h.functions := known.less Set.subset_union_right
  exact getElem?

theorem of_mem_chainFrom {fuel : Nat} {start : Option ObjectRef} {o : Object}
    (there : o ∈ h.chainFrom fuel start) : Known k o := by
  induction fuel generalizing start with
  | zero => simp [Heap.chainFrom] at there
  | succ fuel ih =>
    cases start with
    | none => simp [Heap.chainFrom] at there
    | some r =>
      rcases List.mem_cons.1 there with rfl | there
      · exact objectAt
      · exact ih there

instance inherited {r : ObjectRef} {key : String} : Known k (h.lookup? r key) := by
  cases found : h.lookup? r key with
  | none => exact none
  | some v =>
    obtain ⟨o, there, has⟩ := List.exists_of_findSome?_eq_some found
    have : Known k o := of_mem_chainFrom there
    rw [← has]
    infer_instance

instance property {v : Value} {key : String} : Known k (h.get? v key) := by
  unfold Heap.get?
  split
  · infer_instance
  · split
    · infer_instance
    · cases arrayIndex? key with
      | none => exact none
      | some i => exact getElem?
  · split
    · infer_instance
    · cases arrayIndex? key with
      | none => exact none
      | some i => exact optionMap
  · rename_i r
    cases found : h.function? r with
    | none => exact none
    | some f =>
      have : Known k f := some_iff.1 (found ▸ function?)
      exact ownOfFunction
  · exact none

instance entries {v : Value} : Known k (h.ownEntries v) := by
  refine ⟨fun r ⟨e, there, member⟩ => ?_⟩
  obtain ⟨key, -, rfl⟩ := List.mem_map.1 there
  exact (pair (a := key) (b := (h.get? v key).getD .undefined)).subset member

end Heap

instance binding {a : Arena} {id : ScopeId} {name : String} [known : Known k a] :
    Known k (a.lookup? id name) := by
  cases found : a.lookup? id name with
  | none => exact none
  | some pair =>
    obtain ⟨owner, b⟩ := pair
    have own := Arena.lookup?_own found
    have records : Known k a.records := ⟨known.subset⟩
    have record : Known k (a.record owner) := by
      unfold Arena.record
      have default : Known k (default : Record) := ⟨(emptyTable (α := Binding)).subset⟩
      infer_instance
    have bindings : Known k (a.record owner).bindings := ⟨record.subset⟩
    have here : Known k ((a.record owner).bindings.get? name) := get?
    rw [own] at here
    exact some_iff.2 (pair_iff.2 ⟨inferInstance, some_iff.1 here⟩)

instance method {m : Methods} {v : Value} {key : String} : Known k (m.find? v key) := by
  unfold Methods.find?
  infer_instance

end Known

end Scriptlet
