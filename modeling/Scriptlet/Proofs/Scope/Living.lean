import Scriptlet.Proofs.Scope.Handle

/-!
The containers that were not dropped.

Dropping what nothing refers to, over and over, leaves the largest collection in which everything is
referred to from outside or by something in it: all of it is, and any collection like that is left.
-/

namespace Scriptlet

section Shed

variable {outer all : List Holding} {contents : Holding → List Holding} {fuel : Nat} {x : Holding}

theorem shed_sublist (outer : List Holding) (contents : Holding → List Holding) (fuel : Nat)
    (all : List Holding) : (shed outer contents fuel all).Sublist all := by
  induction fuel generalizing all with
  | zero => exact .refl all
  | succ fuel ih =>
    simp only [shed]
    split
    · exact .refl all
    · exact (ih _).trans List.filter_sublist

/-- Everything that is left is referred to. -/
theorem referred_of_mem_shed (enough : all.length ≤ fuel)
    (left : x ∈ shed outer contents fuel all) :
    x ∈ outer ++ (shed outer contents fuel all).flatMap contents := by
  induction fuel generalizing all with
  | zero =>
    rw [List.eq_nil_of_length_eq_zero (Nat.le_zero.1 enough)] at left
    exact absurd left List.not_mem_nil
  | succ fuel ih =>
    simp only [shed] at left ⊢
    split at left
    · rename_i stays
      rw [if_pos stays]
      exact of_decide_eq_true (List.length_filter_eq_length_iff.1 stays x left)
    · rename_i fewer
      rw [if_neg fewer]
      have less := List.length_filter_le (fun x => decide (x ∈ outer ++ all.flatMap contents)) all
      exact ih (by omega) left

/-- Nothing of a collection in which everything is referred to is dropped. -/
theorem mem_shed {P : Holding → Prop} (inside : ∀ x, P x → x ∈ all)
    (referred : ∀ x, P x → x ∈ outer ∨ ∃ y, P y ∧ x ∈ contents y) (holds : P x) :
    x ∈ shed outer contents fuel all := by
  induction fuel generalizing all with
  | zero => exact inside x holds
  | succ fuel ih =>
    simp only [shed]
    split
    · exact inside x holds
    · refine ih fun y there => List.mem_filter.2 ⟨inside y there, ?_⟩
      rw [decide_eq_true_eq, List.mem_append, List.mem_flatMap]
      exact (referred y there).imp_right fun ⟨z, before, refers⟩ => ⟨z, inside z before, refers⟩

end Shed

theorem Holding.mem_ofValues {v : Value} {vs : List Value} {x : Holding} (member : v ∈ vs)
    (refers : Holding.ofValue? v = some x) : x ∈ Holding.ofValues vs :=
  List.mem_filterMap.2 ⟨v, member, refers⟩

/-- No value is a scope. -/
theorem Holding.ofValue?_ne_scope (v : Value) (id : ScopeId) :
    Holding.ofValue? v ≠ some (.scope id) := by
  cases v <;> simp [Holding.ofValue?]

theorem Holding.ne_scope_of_ofValues {vs : List Value} {x : Holding}
    (member : x ∈ Holding.ofValues vs)
    (id : ScopeId) : x ≠ .scope id := by
  obtain ⟨v, -, refers⟩ := List.mem_filterMap.1 member
  rintro rfl
  exact Holding.ofValue?_ne_scope v id refers

namespace Heap

variable {h : Heap} {x y : Holding}

theorem scope_not_mem_holdings (id : ScopeId) : .scope id ∉ h.holdings := by
  simp [holdings]

theorem array_mem_holdings {r : ArrayRef} : .array r ∈ h.holdings ↔ r.index < h.arrays.size := by
  simp only [holdings, List.mem_append, List.mem_map, List.mem_range]
  constructor
  · rintro ((⟨i, inside, same⟩ | ⟨i, _, same⟩) | ⟨i, _, same⟩)
    · cases same
      exact inside
    · cases same
    · cases same
  · exact fun inside => .inl (.inl ⟨r.index, inside, rfl⟩)

theorem object_mem_holdings {r : ObjectRef} :
    .object r ∈ h.holdings ↔ r.index < h.objects.size := by
  simp only [holdings, List.mem_append, List.mem_map, List.mem_range]
  constructor
  · rintro ((⟨i, _, same⟩ | ⟨i, inside, same⟩) | ⟨i, _, same⟩)
    · cases same
    · cases same
      exact inside
    · cases same
  · exact fun inside => .inl (.inr ⟨r.index, inside, rfl⟩)

theorem function_mem_holdings {r : FunctionRef} :
    .function r ∈ h.holdings ↔ r.index < h.functions.size := by
  simp only [holdings, List.mem_append, List.mem_map, List.mem_range]
  constructor
  · rintro ((⟨i, _, same⟩ | ⟨i, _, same⟩) | ⟨i, inside, same⟩)
    · cases same
    · cases same
    · cases same
      exact inside
  · exact fun inside => .inr ⟨r.index, inside, rfl⟩

theorem nodup_holdings (h : Heap) : h.holdings.Nodup := by
  refine List.nodup_append.2 ⟨List.nodup_append.2 ⟨?_, ?_, ?_⟩, ?_, ?_⟩
  · exact List.Pairwise.map _ (fun _ _ apart same => apart (by cases same; rfl)) List.nodup_range
  · exact List.Pairwise.map _ (fun _ _ apart same => apart (by cases same; rfl)) List.nodup_range
  · simp
  · exact List.Pairwise.map _ (fun _ _ apart same => apart (by cases same; rfl)) List.nodup_range
  · simp only [List.mem_append, List.mem_map]
    rintro x (⟨_, _, rfl⟩ | ⟨_, _, rfl⟩) y ⟨_, _, rfl⟩ <;> simp

/-- Only what there is refers to anything. -/
theorem mem_holdings_of_contents (refers : y ∈ h.contents x) : x ∈ h.holdings := by
  cases x with
  | scope id => exact absurd refers List.not_mem_nil
  | array r =>
    refine array_mem_holdings.2 (Nat.lt_of_not_le fun outside => ?_)
    simp [contents, elements, Array.getElem?_eq_none outside, Holding.ofValues] at refers
  | object r =>
    refine object_mem_holdings.2 (Nat.lt_of_not_le fun outside => ?_)
    have empty : h.object r = {} := by rw [object, Array.getElem?_eq_none outside]; rfl
    simp [contents, empty, Holding.ofValues, Table.values] at refers
  | function r =>
    refine function_mem_holdings.2 (Nat.lt_of_not_le fun outside => ?_)
    have none : h.function? r = none := Array.getElem?_eq_none outside
    simp [contents, none] at refers

/-- Containers do not hold scopes as values. -/
theorem scope_not_mem_contents (x : Holding) (id : ScopeId) : .scope id ∉ h.contents x := by
  intro member
  cases x with
  | scope => exact absurd member List.not_mem_nil
  | array r => exact Holding.ne_scope_of_ofValues member id rfl
  | object r =>
    rcases List.mem_append.1 member with member | member
    · exact Holding.ne_scope_of_ofValues member id rfl
    · simp at member
  | function r =>
    simp only [contents] at member
    split at member
    · exact absurd member List.not_mem_nil
    · rcases List.mem_append.1 member with member | member <;>
        exact Holding.ne_scope_of_ofValues member id rfl

end Heap

namespace Arena

variable {a b : Arena} {h h' : Heap} {vs vs' : List Value} {x y : Holding} {id : ScopeId}

/-- A record that binds something is in a slot of the arena. -/
theorem record_mem (there : a.record id ≠ default) : a.record id ∈ a.records.toList := by
  by_cases inside : id.index < a.records.size
  · simp [record, inside]
  · exact absurd (record_eq_default (Nat.le_of_not_lt inside)) there

theorem exists_record_of_mem {r : Record} (member : r ∈ a.records.toList) :
    ∃ id, a.record id = r := by
  obtain ⟨i, inside, same⟩ := List.getElem_of_mem member
  refine ⟨⟨i⟩, ?_⟩
  rw [Array.length_toList] at inside
  simp [record, inside, ← same]

theorem mem_outer :
    x ∈ a.outer vs ↔
      x ∈ Holding.ofValues vs ∨ ∃ id, x ∈ Holding.ofValues (boundValues (a.record id)) := by
  rw [outer, List.mem_append, List.mem_flatMap]
  refine or_congr_right ⟨?_, ?_⟩
  · rintro ⟨r, member, refers⟩
    obtain ⟨id, rfl⟩ := exists_record_of_mem member
    exact ⟨id, refers⟩
  · rintro ⟨id, refers⟩
    refine ⟨a.record id, record_mem fun same => ?_, refers⟩
    rw [same] at refers
    exact absurd refers List.not_mem_nil

theorem nodup_living (a : Arena) (h : Heap) (vs : List Value) : (a.living h vs).Nodup :=
  h.nodup_holdings.sublist (shed_sublist ..)

theorem mem_holdings_of_living (living : x ∈ a.living h vs) : x ∈ h.holdings :=
  (shed_sublist ..).subset living

/-- What was not dropped is referred to. -/
theorem referred_of_living (living : x ∈ a.living h vs) :
    x ∈ a.outer vs ∨ ∃ y ∈ a.living h vs, x ∈ h.contents y := by
  have referred := referred_of_mem_shed (Nat.le_refl _) living
  rwa [List.mem_append, List.mem_flatMap] at referred

theorem mem_living {P : Holding → Prop} (inside : ∀ x, P x → x ∈ h.holdings)
    (referred : ∀ x, P x → x ∈ a.outer vs ∨ ∃ y, P y ∧ x ∈ h.contents y) (holds : P x) :
    x ∈ a.living h vs :=
  mem_shed inside referred holds

/-- What is not dropped after a change was not dropped before, or is kept by what was referred to
then. -/
theorem living_within (Kept New : Holding → Prop)
    (kept : ∀ x, Kept x → x ∈ h.holdings → x ∈ a.living h vs)
    (there : ∀ x ∈ h'.holdings, x ∈ h.holdings ∨ New x)
    (outer : ∀ x ∈ b.outer vs', x ∈ a.outer vs ∨ Kept x ∨ New x)
    (contents : ∀ y x, x ∈ h'.contents y → (¬New y ∧ x ∈ h.contents y) ∨ Kept x ∨ New x)
    (living : x ∈ b.living h' vs') : x ∈ a.living h vs ∨ New x := by
  by_cases new : New x
  · exact .inr new
  · refine .inl (mem_living (P := fun x => x ∈ h.holdings ∧ (x ∈ a.living h vs ∨
      (x ∈ b.living h' vs' ∧ ¬New x))) (fun _ => And.left) ?_ ?_)
    · rintro x ⟨inside, old | ⟨living, new⟩⟩
      · exact (referred_of_living old).imp_right fun ⟨y, before, refers⟩ =>
          ⟨y, ⟨mem_holdings_of_living before, .inl before⟩, refers⟩
      · -- a member that is kept was living, and then it was referred to before
        have stays (member : x ∈ a.living h vs) := (referred_of_living member).imp_right
          fun ⟨y, before, refers⟩ => (⟨y, ⟨mem_holdings_of_living before, .inl before⟩, refers⟩ :
            ∃ y, (y ∈ h.holdings ∧ (y ∈ a.living h vs ∨ (y ∈ b.living h' vs' ∧ ¬New y))) ∧
              x ∈ h.contents y)
        rcases referred_of_living living with root | ⟨y, before, refers⟩
        · rcases outer x root with root | held | new'
          · exact .inl root
          · exact stays (kept x held inside)
          · exact absurd new' new
        · rcases contents y x refers with ⟨old, refers⟩ | held | new'
          · exact .inr ⟨y, ⟨Heap.mem_holdings_of_contents refers, .inr ⟨before, old⟩⟩, refers⟩
          · exact stays (kept x held inside)
          · exact absurd new' new
    · exact ⟨(there x (mem_holdings_of_living living)).resolve_right new, .inr ⟨living, new⟩⟩

/-! ### Handles -/

/-- What refers to handles: a run, a closure, or someone outside. -/
theorem mem_handles {living : List Holding} {scopes : List ScopeId} {η : Handle} :
    η ∈ a.handles h living scopes ↔
      (∃ id, (a.record id).anchor? = some η) ∨
      (∃ r f, .function r ∈ living ∧ h.function? r = some f ∧ Heap.handleOf? f = some η) ∨
      ∃ id ∈ scopes, (a.record id).handle? = some η := by
  have runs : η ∈ a.records.toList.filterMap Record.anchor? ↔
      ∃ id, (a.record id).anchor? = some η := by
    rw [List.mem_filterMap]
    constructor
    · rintro ⟨r, member, anchored⟩
      obtain ⟨id, rfl⟩ := exists_record_of_mem member
      exact ⟨id, anchored⟩
    · rintro ⟨id, anchored⟩
      refine ⟨a.record id, record_mem fun same => ?_, anchored⟩
      rw [same] at anchored
      cases anchored
  have closures : η ∈ h.handles living ↔
      ∃ r f, .function r ∈ living ∧ h.function? r = some f ∧ Heap.handleOf? f = some η := by
    rw [Heap.handles, List.mem_filterMap]
    constructor
    · rintro ⟨x, member, made⟩
      cases x with
      | function r =>
        obtain ⟨f, found, handle⟩ := Option.bind_eq_some_iff.1 made
        exact ⟨r, f, member, found, handle⟩
      | scope | array | object => cases made
    · rintro ⟨r, f, member, found, handle⟩
      exact ⟨.function r, member, by simp [found, handle]⟩
  rw [handles, List.mem_append, List.mem_append, runs, closures, List.mem_filterMap, or_assoc]

end Arena

end Scriptlet
