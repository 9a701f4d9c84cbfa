import Mathlib.Algebra.Order.BigOperators.Group.List
import Mathlib.Algebra.Order.Ring.Nat
import Scriptlet.Proofs.Eval.Monad
import Scriptlet.Proofs.Value.Conversion

/-!
The two texts of an array.

The conversion to text keeps all arrays that it is inside of. Joining an array makes a text of each
element on its own, and keeps from a cycle only where the array is its own element. Main statement:
`array_texts_agree`, by which both give the same text but for an array of several elements of which
one is another array that leads back to it.
-/

namespace Scriptlet

open Relation

theorem length_intercalate (xs : List String) :
    (String.intercalate "," xs).length = (xs.map String.length).sum + (xs.length - 1) := by
  induction xs with
  | nil => rfl
  | cons x xs ih =>
    cases xs with
    | nil => simp
    | cons y ys =>
      have comma : (",":String).length = 1 := rfl
      simp only [String.intercalate_cons_cons, String.length_append, ih, comma, List.map_cons,
        List.sum_cons, List.length_cons]
      omega

namespace Heap

variable {h : Heap} {a b : ArrayRef} {path path' : List Container} {v w : Value} {out out' : String}
  {c : Container}

/-- One array is an element of another one. -/
def Nests (h : Heap) (a b : ArrayRef) : Prop :=
  .array b ∈ h.held (.array a)

/-- An array of several elements, of which one is another array that leads back to it. -/
def Loops (h : Heap) (a : ArrayRef) : Prop :=
  2 ≤ (h.elements a).size ∧ ∃ b, b ≠ a ∧ h.Nests a b ∧ ReflTransGen h.Nests b a

/-! ### Lengths -/

theorem gather_eq (made : Value → String) : h.textWalk.gather c made =
    String.intercalate "," ((h.held c).map fun w => if w.isNullish then "" else made w) :=
  rfl

section Gather

variable {f g : Value → String}

theorem length_gather_le (le : ∀ w ∈ h.held c, (f w).length ≤ (g w).length) :
    (h.textWalk.gather c f).length ≤ (h.textWalk.gather c g).length := by
  simp only [gather_eq, length_intercalate, List.map_map, List.length_map]
  refine Nat.add_le_add_right (List.sum_le_sum fun w member => ?_) _
  simp only [Function.comp_apply]
  split
  · exact le_rfl
  · exact le w member

theorem length_gather_lt (le : ∀ w ∈ h.held c, (f w).length ≤ (g w).length) (member : w ∈ h.held c)
    (shown : w.isNullish = false) (lt : (f w).length < (g w).length) :
    (h.textWalk.gather c f).length < (h.textWalk.gather c g).length := by
  simp only [gather_eq, length_intercalate, List.map_map, List.length_map]
  refine Nat.add_lt_add_right (List.sum_lt_sum _ _ (fun w member => ?_) ⟨w, member, ?_⟩) _
  · simp only [Function.comp_apply]
    split
    · exact le_rfl
    · exact le w member
  · simpa [shown] using lt

/-- Between several elements there are commas. -/
theorem length_gather_pos (several : 2 ≤ (h.elements a).size) :
    0 < (h.textWalk.gather (.array a) f).length := by
  have size : (h.held (.array a)).length = (h.elements a).size := Array.length_toList
  rw [gather_eq, length_intercalate, List.length_map, size]
  omega

end Gather

/-! ### Runs -/

theorem entered_eq_none :
    h.textWalk.entered path v = none ↔ ∀ b, v = .array b → .array b ∈ path := by
  constructor
  · rintro none b rfl
    exact mem_of_not_entered (v := .array b) rfl none
  · intro known
    cases v with
    | array b => exact newContainer?_eq_none (v := .array b) rfl (known b rfl)
    | _ => rfl

theorem entered_eq_some : h.textWalk.entered path v = some c ↔
    ∃ b, v = .array b ∧ c = .array b ∧ .array b ∉ path := by
  constructor
  · intro some
    cases v with
    | array b =>
      obtain ⟨is, new⟩ := (newContainer?_eq_some (v := .array b)).1 some
      cases is
      exact ⟨b, rfl, rfl, new⟩
    | _ => cases some
  · rintro ⟨b, rfl, rfl, new⟩
    exact (newContainer?_eq_some (v := .array b)).2 ⟨rfl, new⟩

/-- An array that the conversion is inside of has no text. -/
theorem eq_empty_of_mem (run : h.textWalk.Run path (.array b) out) (known : .array b ∈ path) :
    out = "" := by
  cases run with
  | answer => rfl
  | gather _ some =>
    obtain ⟨_, same, -, new⟩ := entered_eq_some.1 some
    cases same
    exact absurd known new

/-- Any other array has that of its elements. -/
theorem exists_made (run : h.textWalk.Run path (.array b) out) (new : .array b ∉ path) :
    ∃ made, out = h.textWalk.gather (.array b) made ∧
      ∀ w ∈ h.held (.array b), h.textWalk.Run (.array b :: path) w (made w) := by
  cases run with
  | answer none => exact absurd (entered_eq_none.1 none b rfl) new
  | gather made some inside =>
    obtain ⟨_, same, rfl, -⟩ := entered_eq_some.1 some
    cases same
    exact ⟨made, rfl, inside⟩

/-! ### Runs inside more arrays -/

/-- A path with one more array on it. -/
structure Widens (a : ArrayRef) (path path' : List Container) : Prop where
  there : .array a ∈ path'
  mem_iff : ∀ {b}, b ≠ a → (.array b ∈ path' ↔ .array b ∈ path)

namespace Widens

theorem cons (wider : Widens a path path') (b : ArrayRef) :
    Widens a (.array b :: path) (.array b :: path') where
  there := List.mem_cons_of_mem _ wider.there
  mem_iff ne := by
    rw [List.mem_cons, List.mem_cons, wider.mem_iff ne]

/-- An array that has a text in the wider path has one in the narrower path. -/
theorem new (wider : Widens a path path') (new : .array b ∉ path') : .array b ∉ path := by
  have ne : b ≠ a := by
    rintro rfl
    exact new wider.there
  exact fun known => new ((wider.mem_iff ne).2 known)

end Widens

/-- Inside more arrays a text gets no longer. -/
theorem length_le_of_widens (wider : Widens a path path') (run : h.textWalk.Run path v out)
    (run' : h.textWalk.Run path' v out') : out'.length ≤ out.length := by
  induction run generalizing path' out' with
  | answer none =>
    cases run' with
    | answer => exact le_rfl
    | gather _ some =>
      obtain ⟨b, rfl, -, new⟩ := entered_eq_some.1 some
      exact absurd (entered_eq_none.1 none b rfl) (wider.new new)
  | @gather path v c made some inside ih =>
    obtain ⟨b, rfl, rfl, new⟩ := entered_eq_some.1 some
    by_cases known : .array b ∈ path'
    · rw [eq_empty_of_mem run' known]
      exact Nat.zero_le _
    · obtain ⟨made', rfl, inside'⟩ := exists_made run' known
      exact length_gather_le fun w member => ih w member (wider.cons b) (inside' w member)

/-- A text stays as it is if the array that is added to the path has none anyway. -/
theorem eq_of_widens (wider : Widens a path path') (run : h.textWalk.Run path v out)
    (run' : h.textWalk.Run path' v out')
    (silent : ∀ b, v = .array b → ReflTransGen h.Nests b a → ∀ {inner text}, path ⊆ inner →
      h.textWalk.Run inner (.array a) text → text = "") : out = out' := by
  induction run generalizing path' out' with
  | answer none =>
    cases run' with
    | answer => rfl
    | gather _ some =>
      obtain ⟨b, rfl, -, new⟩ := entered_eq_some.1 some
      exact absurd (entered_eq_none.1 none b rfl) (wider.new new)
  | @gather path v c made some inside ih =>
    obtain ⟨b, rfl, rfl, new⟩ := entered_eq_some.1 some
    by_cases same : b = a
    · subst same
      rw [eq_empty_of_mem run' wider.there]
      exact silent b rfl .refl (List.Subset.refl _) (.gather made some inside)
    · obtain ⟨made', rfl, inside'⟩ := exists_made run' ((wider.mem_iff same).not.2 new)
      refine h.textWalk.gather_congr fun w member =>
        ih w member (wider.cons b) (inside' w member) ?_
      rintro c rfl reach inner text above
      exact silent b rfl (.head member reach) (List.subset_of_cons_subset above)

/-! ### Ways back -/

/-- A step from one array into another one that is not on a path. -/
def Enters (h : Heap) (path : List Container) (a b : ArrayRef) : Prop :=
  h.Nests a b ∧ .array b ∉ path

/-- A way to another array leaves its start for good. -/
theorem exists_departure (reach : ReflTransGen (h.Enters path) b a) (ne : b ≠ a) :
    ∃ c, h.Enters (.array b :: path) b c ∧ ReflTransGen (h.Enters (.array b :: path)) c a := by
  have apart {x y : ArrayRef} (step : h.Enters path x y) (ne : y ≠ b) :
      h.Enters (.array b :: path) x y :=
    ⟨step.1, by simpa [ne] using step.2⟩
  -- a way from anywhere either avoids the start or leaves it for the last time
  have split (x : ArrayRef) (reach : ReflTransGen (h.Enters path) x a) :
      ReflTransGen (h.Enters (.array b :: path)) x a ∨
        ∃ c, h.Enters (.array b :: path) b c ∧ ReflTransGen (h.Enters (.array b :: path)) c a := by
    induction reach using ReflTransGen.head_induction_on with
    | refl => exact .inl .refl
    | @head x y step _ ih =>
      rcases ih with avoids | leaves
      · by_cases start : y = b
        · subst start
          exact .inr ((avoids.cases_head).resolve_left ne)
        · exact .inl (.head (apart step start) avoids)
      · exact .inr leaves
  rcases split b reach with avoids | leaves
  · exact avoids.cases_head.resolve_left ne
  · exact leaves

/-- On a way to an array of several elements, a text gets shorter inside this array. -/
theorem length_lt_of_widens (several : 2 ≤ (h.elements a).size) (wider : Widens a path path')
    (run : h.textWalk.Run path v out) (run' : h.textWalk.Run path' v out') (is : v = .array b)
    (new : .array b ∉ path) (reach : ReflTransGen (h.Enters path) b a) :
    out'.length < out.length := by
  induction run generalizing path' out' b with
  | answer none => exact absurd (entered_eq_none.1 none b is) new
  | @gather path v c made some inside ih =>
    obtain ⟨_, same, rfl, -⟩ := entered_eq_some.1 some
    cases is.symm.trans same
    subst is
    by_cases back : b = a
    · subst back
      rw [eq_empty_of_mem run' wider.there]
      exact length_gather_pos several
    · obtain ⟨made', rfl, inside'⟩ := exists_made run' ((wider.mem_iff back).not.2 new)
      obtain ⟨c, ⟨member, apart⟩, onward⟩ := exists_departure reach back
      refine length_gather_lt (fun w member => ?_) member rfl ?_
      · exact length_le_of_widens (wider.cons b) (inside w member) (inside' w member)
      · exact ih _ member (wider.cons b) (inside' _ member) rfl apart onward

/-! ### Elements on their own -/

/-- What joining an array makes of an element: its text, or nothing for the array itself. -/
def elementText (h : Heap) (a : ArrayRef) (v : Value) : String :=
  match v with
  | .array b => if b = a then "" else h.text (.array b)
  | _ => h.text v

theorem elementText_self (h : Heap) (a : ArrayRef) : h.elementText a (.array a) = "" :=
  if_pos rfl

theorem elementText_of_ne (apart : v ≠ .array a) : h.elementText a v = h.text v := by
  cases v with
  | array b => exact if_neg fun same => apart (congrArg Value.array same)
  | _ => rfl

theorem widens_singleton (a : ArrayRef) : Widens a [] [.array a] where
  there := List.mem_singleton_self _
  mem_iff ne := by simp [ne]

theorem run_text (h : Heap) (v : Value) : h.textWalk.Run [] v (h.text v) :=
  run_textWalk.2 rfl

theorem length_le_elementText (run : h.textWalk.Run [.array a] v out) :
    out.length ≤ (h.elementText a v).length := by
  by_cases same : v = .array a
  · subst same
    rw [eq_empty_of_mem run (List.mem_singleton_self _)]
    exact Nat.zero_le _
  · rw [elementText_of_ne same]
    exact length_le_of_widens (widens_singleton a) (run_text h v) run

theorem length_lt_elementText (several : 2 ≤ (h.elements a).size) (ne : b ≠ a)
    (back : ReflTransGen h.Nests b a) (run : h.textWalk.Run [.array a] (.array b) out) :
    out.length < (h.elementText a (.array b)).length := by
  rw [elementText_of_ne fun same => ne (Value.array.inj same)]
  have way : ReflTransGen (h.Enters []) b a :=
    ReflTransGen.mono (fun _ _ step => ⟨step, List.not_mem_nil⟩) _ _ back
  exact length_lt_of_widens several (widens_singleton a) (run_text h _) run rfl List.not_mem_nil way

/-- An only element has no text inside the array that it is in and inside itself. -/
theorem silent_of_only (only : h.held (.array a) = [.array b]) (known : .array b ∈ path)
    (run : h.textWalk.Run path (.array a) out) : out = "" := by
  by_cases there : .array a ∈ path
  · exact eq_empty_of_mem run there
  · obtain ⟨made, rfl, inside⟩ := exists_made run there
    have member : .array b ∈ h.held (.array a) := by simp [only]
    have empty := eq_empty_of_mem (inside _ member) (List.mem_cons_of_mem _ known)
    rw [gather_eq, only, List.map_singleton, empty]
    rfl

theorem elementText_eq (straight : ¬h.Loops a) (member : v ∈ h.held (.array a))
    (run : h.textWalk.Run [.array a] v out) : h.elementText a v = out := by
  by_cases same : v = .array a
  · subst same
    rw [eq_empty_of_mem run (List.mem_singleton_self _), elementText_self]
  rw [elementText_of_ne same]
  by_cases back : ∃ b, v = .array b ∧ ReflTransGen h.Nests b a
  · -- the only element that leads back: it is around the array wherever this comes up
    obtain ⟨b, rfl, back⟩ := back
    have ne : b ≠ a := fun eq => same (congrArg Value.array eq)
    have few : ¬2 ≤ (h.elements a).size := fun several => straight ⟨several, b, ne, member, back⟩
    have only : h.held (.array a) = [.array b] := by
      have size : (h.held (.array a)).length = (h.elements a).size := Array.length_toList
      obtain ⟨w, eq⟩ : ∃ w, h.held (.array a) = [w] := by
        refine List.length_eq_one_iff.1 ?_
        have pos := List.length_pos_of_mem member
        omega
      rw [eq, List.mem_singleton] at member
      rw [eq, member]
    obtain ⟨made, eq, inside⟩ := exists_made (run_text h (.array b)) List.not_mem_nil
    obtain ⟨made', rfl, inside'⟩ := exists_made run (by simpa using ne)
    rw [eq]
    refine h.textWalk.gather_congr fun w inner => ?_
    refine eq_of_widens ((widens_singleton a).cons b) (inside w inner) (inside' w inner) ?_
    intro c _ _ inner text above
    exact silent_of_only only (above List.mem_cons_self)
  · refine eq_of_widens (widens_singleton a) (run_text h v) run ?_
    intro b is reach
    exact absurd ⟨b, is, reach⟩ back

/-- The text of an array that is joined with commas. -/
def joinedText (h : Heap) (a : ArrayRef) : String :=
  h.textWalk.gather (.array a) (h.elementText a)

theorem joinedText_eq_iff : h.joinedText a = h.text (.array a) ↔ ¬h.Loops a := by
  obtain ⟨made, eq, inside⟩ := exists_made (run_text h (.array a)) List.not_mem_nil
  rw [eq]
  constructor
  · rintro same ⟨several, b, ne, member, back⟩
    have shorter :=
      length_gather_lt (fun w member => length_le_elementText (inside w member)) member rfl
      (length_lt_elementText several ne back (inside _ member))
    rw [← same] at shorter
    exact absurd shorter (Nat.lt_irrefl _)
  · intro straight
    exact h.textWalk.gather_congr fun w member => elementText_eq straight member (inside w member)

end Heap

/-! ### Main statement -/

namespace Native

open Eval

/-- A value that script code may be asked for the text of. -/
def isScripted : Value → Bool
  | .object _ | .function _ => true
  | _ => false

variable {r : Recursion} {s : State} {a : ArrayRef}

theorem elementTexts_eq {vs : List Value} (plain : ∀ v ∈ vs, isScripted v = false)
    (texts : List String) :
    elementTexts r a texts vs s =
      .ok (texts.reverse ++ vs.map fun v => if v.isNullish then ""
        else s.heap.elementText a v) s := by
  induction vs generalizing texts with
  | nil => exact congrArg (Outcome.ok · s) (List.append_nil _).symm
  | cons v vs ih =>
    have rest (text : String) :=
      ih (fun w member => plain w (List.mem_cons_of_mem v member)) (text :: texts)
    simp only [List.reverse_cons, List.append_assoc, List.singleton_append] at rest
    rw [List.map_cons, ← rest]
    cases v with
    | array b =>
      by_cases same : b = a
      · subst same
        rw [Heap.elementText_self]
        simp only [elementTexts, beq_self_eq_true]
        rfl
      · have other : (b == a) = false := by simpa using same
        simp only [elementTexts, other, Heap.elementText, same]
        rfl
    | object | function => cases plain _ List.mem_cons_self
    | _ => rfl

theorem join_eq (plain : ∀ v ∈ (s.heap.elements a).toList, isScripted v = false) :
    join r (.array a) [] s = .ok (.string (s.heap.joinedText a)) s := by
  change (elementTexts r a [] (s.heap.elements a).toList >>= fun texts =>
    pure (Value.string (String.intercalate "," texts))) s = _
  rw [bind_of_ok (elementTexts_eq plain [])]
  rfl

end Native

/-- Joining an array of data and converting it to text run no script code and change nothing. They
give the same text, unless the array has several elements of which one is another array that leads
back to it. -/
theorem array_texts_agree (r : Recursion) (s : State) (a : ArrayRef) (receiver : Value)
    (args : List Value)
    (plain : ∀ v ∈ (s.heap.elements a).toList, Native.isScripted v = false) :
    ∃ joined,
      Native.arrayMethod r .join (.array a) [] s = .ok (.string joined) s ∧
      Native.arrayMethod r .toString (.array a) args s = .ok (.string joined) s ∧
      Native.globalFunction r .string receiver (.array a :: args) s =
        .ok (.string (s.heap.text (.array a))) s ∧
      Eval.binary r (.arith .add) (.array a) (.string "") s =
        Eval.appendTexts (s.heap.text (.array a)) "" s ∧
      (joined = s.heap.text (.array a) ↔ ¬s.heap.Loops a) := by
  refine ⟨s.heap.joinedText a, ?_, ?_, ?_, ?_, Heap.joinedText_eq_iff⟩
  · exact Native.join_eq plain
  · exact Native.join_eq plain
  · rfl
  · rfl

theorem array_texts_agree_mutual :
    let s : State :=
      { heap := { arrays := #[#[.string "1", .array ⟨1⟩], #[.string "2", .array ⟨0⟩]] },
        scopes := .new,
        realm := default }
    (∀ v ∈ (s.heap.elements ⟨0⟩).toList, Native.isScripted v = false) ∧ s.heap.Loops ⟨0⟩ ∧
      ∃ joined, Native.arrayMethod (Eval.recursion 0) .join (.array ⟨0⟩) [] s =
        .ok (.string joined) s ∧
        joined ≠ s.heap.text (.array ⟨0⟩) := by
  intro s
  have plain : ∀ v ∈ (s.heap.elements ⟨0⟩).toList, Native.isScripted v = false := by decide
  have there : s.heap.Nests ⟨0⟩ ⟨1⟩ := List.mem_cons_of_mem _ List.mem_cons_self
  have back : s.heap.Nests ⟨1⟩ ⟨0⟩ := List.mem_cons_of_mem _ List.mem_cons_self
  have loops : s.heap.Loops ⟨0⟩ := ⟨by decide, ⟨1⟩, by decide, there, .single back⟩
  obtain ⟨joined, done, -, -, -, agree⟩ :=
    array_texts_agree (Eval.recursion 0) s ⟨0⟩ .undefined [] plain
  exact ⟨plain, loops, joined, done, fun same => agree.1 same loops⟩

example :
    let h : Heap := { arrays := #[#[.string "1", .array ⟨1⟩], #[.string "2", .array ⟨0⟩]] }
    h.joinedText ⟨0⟩ = "1,2,1," ∧ h.text (.array ⟨0⟩) = "1,2," := by
  decide +kernel

end Scriptlet
