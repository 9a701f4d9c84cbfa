import Mathlib.Data.List.Basic
import Scriptlet.Proofs.Eval.Growth
import Scriptlet.Proofs.Eval.Monad

/-!
Sorting arrays.

All that a sort does before it writes the array back is comparing elements. Main statement: it ends
as its last comparison does if that fails, with nothing written, and else with the elements permuted
and the undefined ones last; comparisons that answer by a strict weak order make the result sorted,
with equal elements in the order that they had.
-/

namespace Scriptlet.Native

open Eval

/-! ### Orders -/

/-- Whether neither of two elements comes before the other. -/
def level (lt : Value → Value → Bool) (a b : Value) : Bool :=
  !lt a b && !lt b a

/-- An order of some elements in which it is transitive that none of two comes before the other. -/
structure StrictWeak (lt : Value → Value → Bool) (xs : List Value) : Prop where
  irrefl : ∀ a ∈ xs, lt a a = false
  trans : ∀ a ∈ xs, ∀ b ∈ xs, ∀ c ∈ xs, lt a b = true → lt b c = true → lt a c = true
  level_trans : ∀ a ∈ xs, ∀ b ∈ xs, ∀ c ∈ xs, level lt a b = true → level lt b c = true →
    level lt a c = true

/-- No element comes before an earlier one. -/
def Ascending (lt : Value → Value → Bool) (xs : List Value) : Prop :=
  xs.Pairwise fun a b => lt b a = false

variable {lt : Value → Value → Bool} {all : List Value} {a b c : Value}

theorem level_eq_true_iff : level lt a b = true ↔ lt a b = false ∧ lt b a = false := by
  simp [level]

theorem level_comm (lt : Value → Value → Bool) (a b : Value) : level lt a b = level lt b a := by
  simp [level, Bool.and_comm]

namespace StrictWeak

variable (order : StrictWeak lt all)
include order

theorem asymm (ha : a ∈ all) (hb : b ∈ all) (less : lt a b = true) : lt b a = false := by
  by_contra more
  have loop := order.trans a ha b hb a ha less (by simpa using more)
  rw [order.irrefl a ha] at loop
  cases loop

/-- Not coming before is transitive. -/
theorem not_lt_trans (ha : a ∈ all) (hb : b ∈ all) (hc : c ∈ all) (first : lt b a = false)
    (second : lt c b = false) : lt c a = false := by
  by_contra more
  have less : lt c a = true := by simpa using more
  have ab : lt a b = false := by
    by_contra ab
    rw [order.trans c hc a ha b hb less (by simpa using ab)] at second
    cases second
  have bc : lt b c = false := by
    by_contra bc
    rw [order.trans b hb c hc a ha (by simpa using bc) less] at first
    cases first
  have level := order.level_trans a ha b hb c hc (level_eq_true_iff.2 ⟨ab, first⟩)
    (level_eq_true_iff.2 ⟨bc, second⟩)
  rw [(level_eq_true_iff.1 level).2] at less
  cases less

/-- What comes before something comes before all that this does not come after. -/
theorem lt_of_lt_of_not_lt (ha : a ∈ all) (hb : b ∈ all) (hc : c ∈ all) (less : lt a b = true)
    (not : lt c b = false) : lt a c = true := by
  by_contra more
  have back := order.not_lt_trans hb hc ha not (by simpa using more)
  rw [back] at less
  cases less

end StrictWeak

/-- Two ascending lists in one, with equal elements of the first before those of the second. -/
structure Merged (lt : Value → Value → Bool) (all xs ys zs : List Value) : Prop where
  ascending : Ascending lt zs
  stable : ∀ a ∈ all, zs.filter (level lt a) = xs.filter (level lt a) ++ ys.filter (level lt a)

namespace Merged

variable {x y : Value} {xs ys zs : List Value}

/-- The first element of the first list goes first unless that of the second comes before it. -/
theorem left (order : StrictWeak lt all) (firsts : x :: xs ⊆ all) (seconds : y :: ys ⊆ all)
    (perm : zs.Perm (xs ++ y :: ys)) (ascending : Ascending lt (x :: xs))
    (ascending' : Ascending lt (y :: ys)) (not : lt y x = false)
    (merged : Merged lt all xs (y :: ys) zs) : Merged lt all (x :: xs) (y :: ys) (x :: zs) := by
  have hx := firsts List.mem_cons_self
  have hy := seconds List.mem_cons_self
  refine ⟨List.pairwise_cons.2 ⟨fun z member => ?_, merged.ascending⟩, fun a _ => ?_⟩
  · rcases List.mem_append.1 (perm.subset member) with member | member
    · exact (List.pairwise_cons.1 ascending).1 z member
    · rcases List.mem_cons.1 member with rfl | later
      · exact not
      · exact order.not_lt_trans hx hy (seconds member) not
          ((List.pairwise_cons.1 ascending').1 z later)
  · simp only [List.filter_cons, merged.stable a ‹_›]
    split <;> rfl

/-- An element of the second list that comes before the first one of the first list is equal to none
there. -/
theorem right (order : StrictWeak lt all) (firsts : x :: xs ⊆ all) (seconds : y :: ys ⊆ all)
    (perm : zs.Perm (x :: xs ++ ys)) (ascending : Ascending lt (x :: xs))
    (ascending' : Ascending lt (y :: ys)) (less : lt y x = true)
    (merged : Merged lt all (x :: xs) ys zs) : Merged lt all (x :: xs) (y :: ys) (y :: zs) := by
  have hx := firsts List.mem_cons_self
  have hy := seconds List.mem_cons_self
  have below (z : Value) (member : z ∈ x :: xs) : lt y z = true := by
    rcases List.mem_cons.1 member with rfl | later
    · exact less
    · exact order.lt_of_lt_of_not_lt hy hx (firsts member) less
        ((List.pairwise_cons.1 ascending).1 z later)
  refine ⟨List.pairwise_cons.2 ⟨fun z member => ?_, merged.ascending⟩, fun a ha => ?_⟩
  · rcases List.mem_append.1 (perm.subset member) with member | member
    · exact order.asymm hy (firsts member) (below z member)
    · exact (List.pairwise_cons.1 ascending').1 z member
  · by_cases equal : level lt a y = true
    · have none : (x :: xs).filter (level lt a) = [] := by
        refine List.filter_eq_nil_iff.2 fun z member equal' => ?_
        rw [level_comm] at equal
        have same := order.level_trans y hy a ha z (firsts member) equal equal'
        rw [level_eq_true_iff, below z member] at same
        cases same.1
      have rest := merged.stable a ha
      rw [none, List.nil_append] at rest ⊢
      rw [List.filter_cons_of_pos equal, List.filter_cons_of_pos equal, rest]
    · rw [List.filter_cons_of_neg equal, List.filter_cons_of_neg equal]
      exact merged.stable a ha

end Merged

/-! ### Comparisons -/

/-- The states that comparing some elements leads to. -/
def Compared (before : Value → Value → Eval Bool) (all : List Value) : State → State → Prop :=
  Relation.ReflTransGen fun s t => ∃ a ∈ all, ∃ b ∈ all, ∃ first, before a b s = .ok first t

/-- All comparisons of some elements answer, and by an order, whatever comparisons went before. -/
def Consistent (before : Value → Value → Eval Bool) (all : List Value) (s : State)
    (lt : Value → Value → Bool) : Prop :=
  ∀ t, Compared before all s t → ∀ a ∈ all, ∀ b ∈ all, ∃ u, before a b t = .ok (lt a b) u

/-- How a computation ends that does nothing but compare elements. If it does not answer, then
because its last comparison does not. -/
def Ending {α : Type} (before : Value → Value → Eval Bool) (all : List Value) (s : State)
    (Q : α → Prop) : Outcome α → Prop
  | .ok x t => Compared before all s t ∧ Q x
  | .fault f t => ∃ u, Compared before all s u ∧ ∃ a ∈ all, ∃ b ∈ all, before a b u = .fault f t
  | .exhausted t => ∃ u, Compared before all s u ∧ ∃ a ∈ all, ∃ b ∈ all, before a b u = .exhausted t

/-- A computation that does nothing but compare elements, from a state that comparisons led to. -/
structure Comparing {α : Type} (before : Value → Value → Eval Bool) (all : List Value) (s : State)
    (m : Eval α) (Q : α → Prop) : Prop where
  intro ::
  run : ∀ t, Compared before all s t → Ending before all s Q (m t)

namespace Comparing

variable {α β : Type} {before : Value → Value → Eval Bool} {s : State} {m : Eval α}

theorem pure {Q : α → Prop} {x : α} (here : Q x) :
    Comparing before all s (Pure.pure x : Eval α) Q :=
  ⟨fun _ reached => ⟨reached, here⟩⟩

theorem weaken {P Q : α → Prop} (comparing : Comparing before all s m P) (weaker : ∀ x, P x → Q x) :
    Comparing before all s m Q := by
  refine ⟨fun t reached => ?_⟩
  have ends := comparing.run t reached
  cases done : m t with
  | ok x u =>
    rw [done] at ends
    exact ⟨ends.1, weaker x ends.2⟩
  | fault f u =>
    rw [done] at ends
    exact ends
  | exhausted u =>
    rw [done] at ends
    exact ends

theorem bind {P : α → Prop} {Q : β → Prop} {next : α → Eval β} (first : Comparing before all s m P)
    (then_ : ∀ x, P x → Comparing before all s (next x) Q) :
    Comparing before all s (m >>= next) Q := by
  refine ⟨fun t reached => ?_⟩
  have ends := first.run t reached
  change Ending before all s Q (Eval.bind m next t)
  unfold Eval.bind
  cases done : m t with
  | ok x u =>
    rw [done] at ends
    exact (then_ x ends.2).run u ends.1
  | fault f u =>
    rw [done] at ends
    exact ends
  | exhausted u =>
    rw [done] at ends
    exact ends

/-- The answer of a comparison is that of every order by which comparisons answer. -/
theorem compare (ha : a ∈ all) (hb : b ∈ all) : Comparing before all s (before a b)
    fun first => ∀ lt, Consistent before all s lt → first = lt a b := by
  refine ⟨fun t reached => ?_⟩
  cases done : before a b t with
  | ok first u =>
    refine ⟨reached.tail ⟨a, ha, b, hb, first, done⟩, fun lt consistent => ?_⟩
    obtain ⟨v, answer⟩ := consistent t reached a ha b hb
    rw [done] at answer
    cases answer
    rfl
  | fault f u => exact ⟨t, reached, a, ha, b, hb, done⟩
  | exhausted u => exact ⟨t, reached, a, ha, b, hb, done⟩

end Comparing

/-- A computation that only compares by an order answers. -/
theorem Ending.ok_of_consistent {α : Type} {before : Value → Value → Eval Bool} {s : State}
    {Q : α → Prop} {o : Outcome α} (ends : Ending before all s Q o)
    (consistent : Consistent before all s lt) :
    ∃ x t, o = .ok x t := by
  cases o with
  | ok x t => exact ⟨x, t, rfl⟩
  | fault f t =>
    obtain ⟨u, reached, a, ha, b, hb, failed⟩ := ends
    obtain ⟨v, answer⟩ := consistent u reached a ha b hb
    rw [failed] at answer
    cases answer
  | exhausted t =>
    obtain ⟨u, reached, a, ha, b, hb, failed⟩ := ends
    obtain ⟨v, answer⟩ := consistent u reached a ha b hb
    rw [failed] at answer
    cases answer

section MergeSort

variable (before : Value → Value → Eval Bool) (s : State)

/-- Merging puts two lists in one after what is merged already. -/
theorem comparing_merge (merged xs ys : List Value) (firsts : xs ⊆ all) (seconds : ys ⊆ all) :
    Comparing before all s (merge before merged xs ys) fun out => ∃ zs, out = merged.reverse ++ zs ∧
      zs.Perm (xs ++ ys) ∧ ∀ lt, StrictWeak lt all → Consistent before all s lt →
        Ascending lt xs → Ascending lt ys → Merged lt all xs ys zs := by
  fun_induction merge before merged xs ys with
  | case1 merged ys =>
    exact .pure ⟨ys, rfl, .refl _, fun _ _ _ _ ascending => ⟨ascending, fun _ _ => rfl⟩⟩
  | case2 merged xs _ =>
    refine .pure
      ⟨xs, rfl, by rw [List.append_nil], fun _ _ _ ascending _ => ⟨ascending, fun _ _ => ?_⟩⟩
    rw [List.filter_nil, List.append_nil]
  | case3 merged x xs y ys takeRight takeLeft =>
    refine .bind (.compare (seconds List.mem_cons_self) (firsts List.mem_cons_self))
      fun first answer => ?_
    cases first with
    | true =>
      refine (takeRight firsts (List.subset_of_cons_subset seconds)).weaken ?_
      rintro _ ⟨zs, rfl, perm, merges⟩
      refine ⟨y :: zs, by simp, (perm.cons y).trans (List.perm_middle.symm), ?_⟩
      intro lt order consistent ascending ascending'
      exact .right order firsts seconds perm ascending ascending' (answer lt consistent).symm
        (merges lt order consistent ascending (List.Pairwise.of_cons ascending'))
    | false =>
      refine (takeLeft (List.subset_of_cons_subset firsts) seconds).weaken ?_
      rintro _ ⟨zs, rfl, perm, merges⟩
      refine ⟨x :: zs, by simp, perm.cons x, ?_⟩
      intro lt order consistent ascending ascending'
      exact .left order firsts seconds perm ascending ascending' (answer lt consistent).symm
        (merges lt order consistent (List.Pairwise.of_cons ascending) ascending')

/-- A permutation of a list; by every order by which comparisons answer it ascends, and equal
elements keep their places among each other. -/
def Sorts (before : Value → Value → Eval Bool) (all : List Value) (s : State)
    (xs ys : List Value) : Prop :=
  ys.Perm xs ∧ ∀ lt, StrictWeak lt all → Consistent before all s lt →
    Ascending lt ys ∧ ∀ a ∈ all, ys.filter (level lt a) = xs.filter (level lt a)

theorem comparing_mergeSort (xs : List Value) (among : xs ⊆ all) :
    Comparing before all s (mergeSort before xs) (Sorts before all s xs) := by
  fun_induction mergeSort before xs with
  | case1 xs short =>
    refine .pure ⟨.refl _, fun lt _ _ => ⟨?_, fun _ _ => rfl⟩⟩
    cases xs with
    | nil => exact .nil
    | cons x xs =>
      obtain rfl : xs = [] := by simpa using short
      exact List.pairwise_singleton ..
  | case2 xs long left right =>
    have halves := List.take_append_drop (xs.length / 2) xs
    refine .bind (left (List.Subset.trans (List.take_subset ..) among)) fun firsts sorted => ?_
    refine .bind (right (List.Subset.trans (List.drop_subset ..) among)) fun seconds sorted' => ?_
    have ends := comparing_merge before s [] firsts seconds
      (List.Subset.trans sorted.1.subset (List.Subset.trans (List.take_subset ..) among))
      (List.Subset.trans sorted'.1.subset (List.Subset.trans (List.drop_subset ..) among))
    refine ends.weaken ?_
    rintro out ⟨zs, same, perm, merges⟩
    obtain rfl : out = zs := same
    have whole : out.Perm xs := by
      rw [← halves]
      exact perm.trans (sorted.1.append sorted'.1)
    refine ⟨whole, fun lt order consistent => ?_⟩
    obtain ⟨ascending, stable⟩ := sorted.2 lt order consistent
    obtain ⟨ascending', stable'⟩ := sorted'.2 lt order consistent
    have merged := merges lt order consistent ascending ascending'
    refine ⟨merged.ascending, fun a ha => ?_⟩
    rw [merged.stable a ha, stable a ha, stable' a ha,
      ← List.filter_append, halves]

end MergeSort

/-! ### Arrays -/

/-- The comparator that an argument asks for: none if it is undefined. -/
def comparatorOf : Value → Option (Option Value)
  | .undefined => some none
  | .function f => some (some (.function f))
  | _ => none

def definedOf (xs : List Value) : List Value :=
  xs.filter (!·.isUndefined)

def undefinedOf (xs : List Value) : List Value :=
  xs.filter (·.isUndefined)

/-- The state with other elements in an array. -/
def withElements (s : State) (ref : ArrayRef) (xs : List Value) : State :=
  { s with heap := s.heap.modifyArray ref fun _ => xs.toArray }

theorem definedOf_append_undefinedOf (xs : List Value) :
    (definedOf xs ++ undefinedOf xs).Perm xs :=
  List.perm_append_comm.trans (List.filter_append_perm _ xs)

theorem elements_withElements {s : State} {ref : ArrayRef} (there : ref.index < s.heap.arrays.size)
    (xs : List Value) : ((withElements s ref xs).heap.elements ref).toList = xs := by
  simp [withElements, Heap.elements, Heap.modifyArray, Array.getElem?_modify,
    Array.getElem?_eq_getElem there]

/-- The elements are read before the first comparison and written after the last one. -/
theorem sort_eq {r : Recursion} {args : List Value} {comparator : Option Value} (ref : ArrayRef)
    (given : comparatorOf (argument args 0) = some comparator) (s : State) :
    sort r (.array ref) args s =
      match mergeSort (comesBefore r comparator) (definedOf (s.heap.elements ref).toList) s with
      | .ok sorted t =>
        .ok (.array ref) (withElements t ref (sorted ++ undefinedOf (s.heap.elements ref).toList))
      | .fault f t => .fault f t
      | .exhausted t => .exhausted t := by
  have run : sort r (.array ref) args s =
      Eval.bind (mergeSort (comesBefore r comparator) (definedOf (s.heap.elements ref).toList))
        (fun sorted => do
          modifyHeap (·.modifyArray ref fun _ =>
            (sorted ++ undefinedOf (s.heap.elements ref).toList).toArray)
          return .array ref) s := by
    unfold sort
    simp only [List.partition_eq_filter_filter]
    cases argued : argument args 0 with
    | undefined =>
      rw [argued] at given
      cases given
      rfl
    | function f =>
      rw [argued] at given
      cases given
      rfl
    | _ =>
      rw [argued] at given
      cases given
  rw [run]
  unfold Eval.bind
  cases mergeSort (comesBefore r comparator) (definedOf (s.heap.elements ref).toList) s <;> rfl

theorem arrays_le_of_compared {fuel : Nat} {comparator : Option Value} {s t : State}
    (compared : Compared (comesBefore (recursion fuel) comparator) all s t) :
    s.heap.arrays.size ≤ t.heap.arrays.size := by
  induction compared with
  | refl => exact Nat.le_refl _
  | tail _ step ih =>
    obtain ⟨a, -, b, -, first, answer⟩ := step
    exact ih.trans (arrays_le_of_comesBefore answer)

theorem Compared.eq_of_nil {before : Value → Value → Eval Bool} {s t : State}
    (compared : Compared before [] s t) : t = s := by
  induction compared with
  | refl => rfl
  | tail _ step _ =>
    obtain ⟨a, none, -⟩ := step
    cases none

/-- Comparing elements of an array leaves it a place for them. -/
theorem elements_of_compared {fuel : Nat} {comparator : Option Value} {s t : State} {ref : ArrayRef}
    {sorted : List Value}
    (compared : Compared (comesBefore (recursion fuel) comparator)
      (definedOf (s.heap.elements ref).toList) s t)
    (perm : sorted.Perm (definedOf (s.heap.elements ref).toList)) :
    ((withElements t ref (sorted ++ undefinedOf (s.heap.elements ref).toList)).heap.elements
      ref).toList =
      sorted ++ undefinedOf (s.heap.elements ref).toList := by
  by_cases there : ref.index < s.heap.arrays.size
  · exact elements_withElements (there.trans_le (arrays_le_of_compared compared)) _
  · have none : s.heap.elements ref = #[] := by
      simp [Heap.elements, Array.getElem?_eq_none (Nat.le_of_not_lt there)]
    rw [none] at compared perm ⊢
    obtain rfl := compared.eq_of_nil
    rw [List.perm_nil.1 perm]
    simp [withElements, Heap.elements, Heap.modifyArray, Array.getElem?_modify, undefinedOf,
      Array.getElem?_eq_none (Nat.le_of_not_lt there)]

/-! ### Comparators -/

section Comparators

variable {r : Recursion} {f : Value} {s t : State} {number : Value → Value → Float} {x : Float}

/-- Where the number that a comparator answers puts the first of two elements: before the second one
if it is negative, and after it if it is positive. An answer that is not a number counts as zero. -/
def side (x : Float) : Ordering :=
  if x.isNaN then .eq else if x < 0.0 then .lt else if 0.0 < x then .gt else .eq

theorem not_lt_of_isNaN (nan : x.isNaN = true) (y : Float) : ¬x < y := by
  intro less
  have apart : x.toModel.unpack.lt y.toModel.unpack = true := by
    change x.lt y = true at less
    exact of_decide_eq_true less
  have none : x.toModel.unpack = .notANumber := by
    change x.toModel.unpack.isNaN = true at nan
    unfold Float.Model.UnpackedFloat.isNaN at nan
    split at nan
    · assumption
    · cases nan
  rw [none] at apart
  cases apart

theorem side_eq_lt_iff : side x = .lt ↔ x < 0.0 := by
  unfold side
  split
  · simp [not_lt_of_isNaN ‹_›]
  · split
    · simp [*]
    · split <;> simp [*]

/-- The states that calls of a comparator on some elements lead to. -/
def Called (r : Recursion) (f : Value) (all : List Value) : State → State → Prop :=
  Relation.ReflTransGen fun s t => ∃ a ∈ all, ∃ b ∈ all, ∃ v u x,
    r.call f .undefined [a, b] s = .ok v u ∧ toNumber r v u = .ok x t

/-- A comparator that answers any two of some elements with a number of theirs, whatever calls of it
went before. -/
def Answers (r : Recursion) (f : Value) (all : List Value) (s : State)
    (number : Value → Value → Float) : Prop :=
  ∀ t, Called r f all s t → ∀ a ∈ all, ∀ b ∈ all, ∃ v u w,
    r.call f .undefined [a, b] t = .ok v u ∧ toNumber r v u = .ok (number a b) w

/-- Whether the number of two elements puts the first one before the second. -/
def precedes (number : Value → Value → Float) (a b : Value) : Bool :=
  side (number a b) == .lt

theorem precedes_eq_true_iff : precedes number a b = true ↔ side (number a b) = .lt := by
  simp [precedes]

theorem decide_side (x : Float) : (side x == .lt) = decide (x < 0.0) := by
  rw [Bool.eq_iff_iff, beq_iff_eq, decide_eq_true_iff]
  exact side_eq_lt_iff

theorem comesBefore_ok_iff {first : Bool} : comesBefore r (some f) a b s = .ok first t ↔
    ∃ v u x, r.call f .undefined [a, b] s = .ok v u ∧ toNumber r v u = .ok x t ∧
      first = (side x == .lt) := by
  constructor
  · intro answer
    obtain ⟨v, u, called, answer⟩ := Eval.bind_ok answer
    obtain ⟨x, w, converted, answer⟩ := Eval.bind_ok answer
    cases answer
    exact ⟨v, u, x, called, converted, (decide_side x).symm⟩
  · rintro ⟨v, u, x, called, converted, rfl⟩
    rw [decide_side]
    exact (bind_of_ok called).trans (bind_of_ok converted)

theorem called_of_compared (compared : Compared (comesBefore r (some f)) all s t) :
    Called r f all s t := by
  induction compared with
  | refl => exact .refl
  | tail _ step ih =>
    obtain ⟨a, ha, b, hb, first, answer⟩ := step
    obtain ⟨v, u, x, called, converted, -⟩ := comesBefore_ok_iff.1 answer
    exact ih.tail ⟨a, ha, b, hb, v, u, x, called, converted⟩

/-- The comparisons with a comparator answer by the sides of its numbers. -/
theorem Answers.consistent (answers : Answers r f all s number) :
    Consistent (comesBefore r (some f)) all s (precedes number) := by
  intro t compared a ha b hb
  obtain ⟨v, u, w, called, converted⟩ := answers t (called_of_compared compared) a ha b hb
  exact ⟨w, comesBefore_ok_iff.2 ⟨v, u, _, called, converted, rfl⟩⟩

end Comparators

/-! ### Texts -/

instance : Std.TransCmp Text.compareUnits where
  eq_swap := by
    unfold Text.compareUnits
    exact Std.OrientedCmp.eq_swap
  isLE_trans := by
    unfold Text.compareUnits
    exact Std.TransCmp.isLE_trans

/-- Whether both values are texts of which the first one comes first. -/
def textLess : Value → Value → Bool
  | .string a, .string b => Text.compareUnits a b == .lt
  | _, _ => false

/-- The operator of the language orders texts like this. -/
theorem binary_less_string (r : Recursion) (a b : String) (s : State) :
    binary r .less (.string a) (.string b) s =
      .ok (.boolean (textLess (.string a) (.string b))) s := by
  change Outcome.ok (Value.boolean (some (Text.compareUnits a b == .lt) == some true)) s = _
  simp [textLess]

theorem comesBefore_string (r : Recursion) (a b : String) (s : State) :
    comesBefore r none (.string a) (.string b) s = .ok (textLess (.string a) (.string b)) s :=
  rfl

theorem strictWeak_textLess (texts : ∀ x ∈ all, ∃ text, x = .string text) :
    StrictWeak textLess all := by
  have level_iff (a b : String) : level textLess (.string a) (.string b) = true ↔
      Text.compareUnits a b = .eq := by
    have swap : Text.compareUnits b a = (Text.compareUnits a b).swap := Std.OrientedCmp.eq_swap
    rw [level_eq_true_iff]
    simp only [textLess, swap]
    cases Text.compareUnits a b <;> decide
  refine ⟨fun x hx => ?_, fun x hx y hy z hz => ?_, fun x hx y hy z hz => ?_⟩
  · obtain ⟨a, rfl⟩ := texts x hx
    have same : Text.compareUnits a a = .eq := Std.ReflCmp.compare_self
    simp [textLess, same]
  · obtain ⟨a, rfl⟩ := texts x hx
    obtain ⟨b, rfl⟩ := texts y hy
    obtain ⟨c, rfl⟩ := texts z hz
    simp only [textLess, beq_iff_eq]
    exact Std.TransCmp.lt_trans
  · obtain ⟨a, rfl⟩ := texts x hx
    obtain ⟨b, rfl⟩ := texts y hy
    obtain ⟨c, rfl⟩ := texts z hz
    simp only [level_iff]
    exact Std.TransCmp.eq_trans

/-- Comparing texts changes nothing. -/
theorem consistent_textLess (r : Recursion) (texts : ∀ x ∈ all, ∃ text, x = .string text)
    (s : State) :
    Consistent (comesBefore r none) all s textLess := by
  intro t _ x hx y hy
  obtain ⟨a, rfl⟩ := texts x hx
  obtain ⟨b, rfl⟩ := texts y hy
  exact ⟨t, comesBefore_string r a b t⟩

/-! ### Main statement -/

section Main

variable {fuel : Nat} {s : State} {ref : ArrayRef} {args : List Value} {comparator : Option Value}

/-- Sorting ends with its elements in place, or as a comparison does. -/
theorem sort_ends (fuel : Nat) (s : State) (ref : ArrayRef)
    (given : comparatorOf (argument args 0) = some comparator) :
    let before := comesBefore (recursion fuel) comparator
    let xs := (s.heap.elements ref).toList
    let result := sort (recursion fuel) (.array ref) args s
    (∃ u sorted, Compared before (definedOf xs) s u ∧ sorted.Perm (definedOf xs) ∧
        result = .ok (.array ref) (withElements u ref (sorted ++ undefinedOf xs)) ∧
        ((withElements u ref (sorted ++ undefinedOf xs)).heap.elements ref).toList =
          sorted ++ undefinedOf xs ∧ (sorted ++ undefinedOf xs).Perm xs) ∨
      ∃ u, Compared before (definedOf xs) s u ∧ ∃ a ∈ definedOf xs, ∃ b ∈ definedOf xs,
        (∃ f t, before a b u = .fault f t ∧ result = .fault f t) ∨
        ∃ t, before a b u = .exhausted t ∧ result = .exhausted t := by
  intro before xs result
  have ends := (comparing_mergeSort before s (definedOf xs) (List.Subset.refl _)).run s .refl
  have equation : result = _ := sort_eq ref given s
  cases done : mergeSort before (definedOf xs) s with
  | ok sorted u =>
    rw [done] at ends equation
    obtain ⟨compared, perm, -⟩ := ends
    exact .inl ⟨u, sorted, compared, perm, equation, elements_of_compared compared perm,
      (perm.append_right _).trans (definedOf_append_undefinedOf xs)⟩
  | fault f t =>
    rw [done] at ends equation
    obtain ⟨u, compared, a, ha, b, hb, failed⟩ := ends
    exact .inr ⟨u, compared, a, ha, b, hb, .inl ⟨f, t, failed, equation⟩⟩
  | exhausted t =>
    rw [done] at ends equation
    obtain ⟨u, compared, a, ha, b, hb, failed⟩ := ends
    exact .inr ⟨u, compared, a, ha, b, hb, .inr ⟨t, failed, equation⟩⟩

/-- By an order by which comparisons answer, an array gets sorted. -/
theorem sort_of_consistent (given : comparatorOf (argument args 0) = some comparator)
    (order : StrictWeak lt (definedOf (s.heap.elements ref).toList))
    (consistent : Consistent (comesBefore (recursion fuel) comparator)
      (definedOf (s.heap.elements ref).toList) s lt) :
    ∃ t sorted, sort (recursion fuel) (.array ref) args s = .ok (.array ref) t ∧
      (t.heap.elements ref).toList = sorted ++ undefinedOf (s.heap.elements ref).toList ∧
      sorted.Perm (definedOf (s.heap.elements ref).toList) ∧ Ascending lt sorted ∧
      ∀ a ∈ definedOf (s.heap.elements ref).toList,
        sorted.filter (level lt a) =
          (definedOf (s.heap.elements ref).toList).filter (level lt a) := by
  have ends := (comparing_mergeSort (comesBefore (recursion fuel) comparator) s
    (definedOf (s.heap.elements ref).toList) (List.Subset.refl _)).run s .refl
  obtain ⟨sorted, u, done⟩ := ends.ok_of_consistent consistent
  rw [done] at ends
  obtain ⟨compared, perm, sorts⟩ := ends
  obtain ⟨ascending, stable⟩ := sorts lt order consistent
  refine ⟨_, sorted, ?_, elements_of_compared compared perm, perm, ascending, stable⟩
  rw [sort_eq ref given, done]

/-- By a comparator whose numbers order the elements, an array gets sorted: no element comes before
an earlier one, none comes after a later one if the numbers of two elements have opposite signs
either way around, and elements of which none comes before the other stay as they stood. -/
theorem sort_of_answers {f : Value} {number : Value → Value → Float}
    (given : comparatorOf (argument args 0) = some (some f))
    (answers : Answers (recursion fuel) f (definedOf (s.heap.elements ref).toList) s number)
    (order : StrictWeak (precedes number) (definedOf (s.heap.elements ref).toList)) :
    ∃ t sorted, sort (recursion fuel) (.array ref) args s = .ok (.array ref) t ∧
      (t.heap.elements ref).toList = sorted ++ undefinedOf (s.heap.elements ref).toList ∧
      sorted.Perm (definedOf (s.heap.elements ref).toList) ∧
      (sorted.Pairwise fun a b => side (number b a) ≠ .lt) ∧
      ((∀ a ∈ sorted, ∀ b ∈ sorted, side (number b a) = (side (number a b)).swap) →
        sorted.Pairwise fun a b => side (number a b) ≠ .gt) ∧
      ∀ a ∈ definedOf (s.heap.elements ref).toList,
        sorted.filter (fun b => side (number a b) != .lt && side (number b a) != .lt) =
          (definedOf (s.heap.elements ref).toList).filter
            fun b => side (number a b) != .lt && side (number b a) != .lt := by
  obtain ⟨t, sorted, done, elements, perm, ascending, stable⟩ :=
    sort_of_consistent given order answers.consistent
  have later : sorted.Pairwise fun a b => side (number b a) ≠ .lt :=
    ascending.imp fun less => by simpa [precedes] using less
  refine ⟨t, sorted, done, elements, perm, later, fun opposite => ?_, fun a ha => stable a ha⟩
  refine later.imp_of_mem fun ha hb less more => less ?_
  rw [opposite _ ha _ hb, more]
  rfl

/-- Without a comparator, texts get sorted by the operator of the language. -/
theorem sort_of_texts (fuel : Nat) (given : comparatorOf (argument args 0) = some none)
    (texts : ∀ x ∈ (s.heap.elements ref).toList, ∃ text, x = .string text) :
    ∃ t, sort (recursion fuel) (.array ref) args s = .ok (.array ref) t ∧
      (t.heap.elements ref).toList.Perm (s.heap.elements ref).toList ∧
      (t.heap.elements ref).toList.Pairwise fun a b =>
        ∀ r u, binary r .less b a u = .ok (.boolean false) u := by
  have defined : definedOf (s.heap.elements ref).toList = (s.heap.elements ref).toList := by
    refine List.filter_eq_self.2 fun x member => ?_
    obtain ⟨text, rfl⟩ := texts x member
    rfl
  have undefined : undefinedOf (s.heap.elements ref).toList = [] := by
    refine List.filter_eq_nil_iff.2 fun x member => ?_
    obtain ⟨text, rfl⟩ := texts x member
    simp [Value.isUndefined]
  have order := strictWeak_textLess texts
  have consistent := consistent_textLess (recursion fuel) texts s
  rw [← defined] at order consistent
  obtain ⟨t, sorted, done, elements, perm, ascending, -⟩ :=
    sort_of_consistent given order consistent
  rw [undefined, List.append_nil] at elements
  rw [defined] at perm
  refine ⟨t, done, elements ▸ perm, ?_⟩
  rw [elements]
  refine ascending.imp_of_mem fun ha hb less r u => ?_
  obtain ⟨a, rfl⟩ := texts _ (perm.subset ha)
  obtain ⟨b, rfl⟩ := texts _ (perm.subset hb)
  rw [binary_less_string, less]

end Main

/-! ### An instance -/

/-- A comparator of texts by their lengths: no number tells texts that are as long. -/
def lengthOrder : Value → Value → Float
  | .string a, .string b =>
    if a.length < b.length then -1.0 else if b.length < a.length then 1.0 else Number.nan
  | _, _ => Number.nan

def byLength : HostFunction where
  arity := 2
  course _ args := .answer (.number (lengthOrder (argument args 0) (argument args 1)))

/-- A state with an array of texts and a hole, and with the comparator. -/
def unsortedTexts : State where
  heap := {
    arrays := #[#[.string "bb", .undefined, .string "a", .string "cc"]]
    functions := #[{ name := "byLength", callable := .native 2 (.host byLength) }] }
  scopes := .new
  realm := default

theorem side_lengthOrder (a b : String) :
    side (lengthOrder (.string a) (.string b)) = compare a.length b.length := by
  have before : side (-1.0) = .lt := by decide +kernel
  have after : side 1.0 = .gt := by decide +kernel
  have level : side Number.nan = .eq := by decide +kernel
  rw [lengthOrder]
  split
  · rw [before, Nat.compare_eq_lt.2 ‹_›]
  · split
    · rw [after, Nat.compare_eq_gt.2 ‹_›]
    · rw [level, Nat.compare_eq_eq.2 (by omega)]

theorem precedes_lengthOrder (a b : String) :
    precedes lengthOrder (.string a) (.string b) = decide (a.length < b.length) := by
  rw [Bool.eq_iff_iff, precedes_eq_true_iff, side_lengthOrder, Nat.compare_eq_lt,
    decide_eq_true_iff]

theorem strictWeak_lengthOrder (texts : ∀ x ∈ all, ∃ text, x = .string text) :
    StrictWeak (precedes lengthOrder) all := by
  refine ⟨fun x hx => ?_, fun x hx y hy z hz => ?_, fun x hx y hy z hz => ?_⟩
  · obtain ⟨a, rfl⟩ := texts x hx
    simp [precedes_lengthOrder]
  all_goals
    obtain ⟨a, rfl⟩ := texts x hx
    obtain ⟨b, rfl⟩ := texts y hy
    obtain ⟨c, rfl⟩ := texts z hz
    simp only [level_eq_true_iff, precedes_lengthOrder, decide_eq_true_eq, decide_eq_false_iff_not]
    omega

/-- Calls of the comparator change nothing. -/
theorem answers_lengthOrder (all : List Value) :
    Answers (recursion 1) (.function ⟨0⟩) all unsortedTexts lengthOrder := by
  have call (a b : Value) : (recursion 1).call (.function ⟨0⟩) .undefined [a, b] unsortedTexts =
      .ok (.number (lengthOrder a b)) unsortedTexts := rfl
  have convert (x : Float) :
      toNumber (recursion 1) (.number x) unsortedTexts = .ok x unsortedTexts := rfl
  intro t called
  have same : t = unsortedTexts := by
    induction called with
    | refl => rfl
    | tail _ step ih =>
      obtain ⟨a, -, b, -, v, u, x, called, converted⟩ := step
      rw [ih, call] at called
      cases called
      rw [convert] at converted
      cases converted
      rfl
  rw [same]
  exact fun a _ b _ => ⟨_, _, _, call a b, convert _⟩

end Scriptlet.Native
