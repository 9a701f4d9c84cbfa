import Scriptlet.Proofs.Scope.Sweep

/-!
What becomes of slots, in any arena at all.

No operation takes a slot away, and freeing a slot is the only one that touches what is bound in a
record. This holds of arenas that no interpreter would reach too, as it depends neither on what is
held nor on the handles.
-/

namespace Scriptlet

namespace Arena

variable {a b c : Arena} {id x : ScopeId}

/-! ### Freeing slots -/

/-- The slots are as they were, but for some that were freed and cleared, and no handle was made. -/
structure Clears (a b : Arena) : Prop where
  size : b.records.size = a.records.size
  made : b.made = a.made
  free : a.free ⊆ b.free
  bindings : ∀ x, (b.record x).bindings = (a.record x).bindings ∨
    x ∈ b.free ∧ (b.record x).bindings = {}
  handle : ∀ x η, (b.record x).handle? = some η → (a.record x).handle? = some η

namespace Clears

theorem refl (a : Arena) : a.Clears a :=
  ⟨rfl, rfl, List.Subset.refl _, fun _ => .inl rfl, fun _ _ known => known⟩

theorem trans (first : a.Clears b) (second : b.Clears c) : a.Clears c := by
  refine ⟨second.size.trans first.size, second.made.trans first.made,
    List.Subset.trans first.free second.free, fun x => ?_, fun x η known =>
      first.handle x η (second.handle x η known)⟩
  rcases second.bindings x with same | cleared
  · rw [same]
    exact (first.bindings x).imp_right fun cleared => ⟨second.free cleared.1, cleared.2⟩
  · exact .inr cleared

theorem dispose (a : Arena) (id : ScopeId) : a.Clears (a.dispose id) := by
  refine ⟨size_dispose .., rfl, List.subset_cons_self .., fun x => ?_, fun x η known => ?_⟩
  · rw [record_dispose]
    split
    · rename_i here
      exact .inr ⟨here.1 ▸ List.mem_cons_self, rfl⟩
    · exact .inl rfl
  · rw [record_dispose] at known
    split at known
    · cases known
    · exact known

theorem disposeAll (a : Arena) (gone : List ScopeId) : a.Clears (a.disposeAll gone) := by
  induction gone with
  | nil => exact .refl a
  | cons id gone ih => exact ih.trans (.dispose ..)

theorem keep (a : Arena) (live : List Holding) : a.Clears (a.keep live) := by
  obtain ⟨size, made, free, bindings, handle⟩ :=
    disposeAll a (a.released.filter fun id => !decide (.scope id ∈ live))
  exact ⟨size, made, free, bindings, handle⟩

theorem loosen (a : Arena) (id : ScopeId) : a.Clears (a.loosen id) :=
  ⟨size_loosen .., made_loosen .., (free_loosen a id).symm ▸ List.Subset.refl _,
    fun x => .inl (bindings_loosen a id x), fun x _ known => handle?_loosen a id x ▸ known⟩

theorem retire (a : Arena) (id : ScopeId) : a.Clears (a.retire id) :=
  ⟨size_retire .., made_retire .., (free_retire a id).symm ▸ List.Subset.refl _,
    fun x => .inl (bindings_retire a id x), fun x _ known => handle?_retire a id x ▸ known⟩

theorem collect (a : Arena) (h : Heap) (held : Holders) : a.Clears (a.collect h held) :=
  keep a _

theorem release (a : Arena) (h : Heap) (held : Holders) (id : ScopeId) :
    a.Clears (a.release h held id) := by
  unfold Arena.release
  split
  · exact .refl a
  · simp only
    split
    · exact (loosen a id).trans (dispose ..)
    · split
      · exact retire a id
      · exact (retire a id).trans (collect ..)

end Clears

/-! ### Opening scopes -/

theorem size_le_openUnder (a : Arena) (kind : ScopeKind) (parent : ScopeId) (η : Handle) :
    a.records.size ≤ (a.openUnder kind parent η).2.records.size := by
  unfold openUnder
  split <;> simp

theorem free_openUnder (a : Arena) (kind : ScopeKind) (parent : ScopeId) (η : Handle) :
    (a.openUnder kind parent η).2.free = a.free.tail := by
  unfold openUnder
  split
  · rename_i taken
    rw [taken, List.tail_cons]
  · rename_i none
    rw [none, List.tail_nil]

/-- Nothing is bound in a scope that has just been opened. -/
theorem bindings_openUnder (a : Arena) (kind : ScopeKind) (parent x : ScopeId) (η : Handle) :
    ((a.openUnder kind parent η).2.record x).bindings = (a.record x).bindings ∨
      x = a.nextSlot ∧ ((a.openUnder kind parent η).2.record x).bindings = {} := by
  by_cases same : x = a.nextSlot
  · refine .inr ⟨same, ?_⟩
    subst same
    unfold openUnder nextSlot
    split
    · rename_i slot rest taken
      simp only [taken, List.head?_cons, Option.getD_some, record,
        Array.getElem?_setIfInBounds, if_true]
      split <;> rfl
    · rename_i none
      simp [none, record]
  · exact .inl (by rw [record_openUnder_of_ne same])

/-- A scope that is opened takes a slot that is free or new. -/
theorem nextSlot_cases (a : Arena) : a.nextSlot ∈ a.free ∨ a.nextSlot = ⟨a.records.size⟩ := by
  unfold nextSlot
  cases a.free with
  | nil => exact .inr rfl
  | cons slot rest => exact .inl List.mem_cons_self

/-! ### Slots in use -/

/-- A slot of the arena that is not listed as free. -/
def Allocates (a : Arena) (id : ScopeId) : Prop :=
  id.index < a.records.size ∧ id ∉ a.free

instance : Decidable (a.Allocates id) :=
  inferInstanceAs (Decidable (_ ∧ _))

/-- Wherever the lists of an arena are right, these are the slots of its records. -/
theorem Tidy.allocates_iff (tidy : a.Tidy) : a.Allocates id ↔ (a.record id).phase ≠ .free := by
  rw [Allocates, tidy.free, not_and]
  exact ⟨fun ⟨inside, apart⟩ => apart inside, fun allocated =>
    ⟨lt_size_of_allocated allocated, fun _ => allocated⟩⟩

theorem Clears.bindings_of_allocates (clears : a.Clears b) (allocates : b.Allocates id) :
    (b.record id).bindings = (a.record id).bindings :=
  (clears.bindings id).resolve_right fun cleared => allocates.2 cleared.1

/-- The slot of a scope that is opened was not in use. -/
theorem Allocates.bindings_push (allocates : a.Allocates id) (kind : ScopeKind) (parent : ScopeId)
    (alive : Handle → Bool) :
    ((a.push kind parent alive).2.record id).bindings = (a.record id).bindings := by
  have same := SameSlots.capture a parent alive
  have apart : id ≠ (a.capture parent alive).2.nextSlot := by
    rw [same.nextSlot]
    rintro rfl
    rcases a.nextSlot_cases with free | new
    · exact allocates.2 free
    · have inside := allocates.1
      rw [new] at inside
      exact Nat.lt_irrefl _ inside
  rw [push, record_openUnder_of_ne apart]
  exact same.bindings id

/-! ### The root -/

/-- The root is in use and will stay so. -/
structure Rooted (a : Arena) : Prop where
  inside : 0 < a.records.size
  unfree : root ∉ a.free
  unreleased : root ∉ a.released

namespace Rooted

theorem allocates (rooted : a.Rooted) : a.Allocates root :=
  ⟨rooted.inside, rooted.unfree⟩

theorem of_tidy (tidy : a.Tidy) : a.Rooted := by
  have allocated : (a.record root).phase ≠ .free := by simp [tidy.root]
  refine ⟨lt_size_of_allocated allocated, ?_, ?_⟩
  · simp [tidy.free, tidy.root]
  · simp [tidy.released, tidy.root]

theorem bind (rooted : a.Rooted) (id : ScopeId) (name : String) (set : Binding) :
    (a.bind id name set).Rooted :=
  ⟨(size_bind a id name set).symm ▸ rooted.inside, rooted.unfree, rooted.unreleased⟩

theorem push (rooted : a.Rooted) (kind : ScopeKind) (parent : ScopeId) (alive : Handle → Bool) :
    (a.push kind parent alive).2.Rooted := by
  have same := SameSlots.capture a parent alive
  have released : (a.push kind parent alive).2.released = a.released :=
    (released_openUnder ..).trans same.released
  refine ⟨Nat.lt_of_lt_of_le (same.size.symm ▸ rooted.inside) (size_le_openUnder ..), ?_, ?_⟩
  · rw [Arena.push, free_openUnder, same.free]
    exact fun member => rooted.unfree (List.mem_of_mem_tail member)
  · exact released.symm ▸ rooted.unreleased

theorem capture (rooted : a.Rooted) (id : ScopeId) (alive : Handle → Bool) :
    (a.capture id alive).2.Rooted := by
  have same := SameSlots.capture a id alive
  exact ⟨same.size.symm ▸ rooted.inside, same.free.symm ▸ rooted.unfree,
    same.released.symm ▸ rooted.unreleased⟩

theorem retire (rooted : a.Rooted) (id : ScopeId) : (a.retire id).Rooted := by
  refine ⟨(size_retire a id).symm ▸ rooted.inside, (free_retire a id).symm ▸ rooted.unfree, ?_⟩
  unfold Arena.retire
  split
  · exact rooted.unreleased
  · rename_i ends
    have apart : Arena.root ≠ id := fun same => ends (by simp [same])
    exact List.not_mem_cons_of_ne_of_not_mem apart rooted.unreleased

theorem collect (rooted : a.Rooted) (h : Heap) (held : Holders) : (a.collect h held).Rooted := by
  refine ⟨(Clears.collect a h held).size.symm ▸ rooted.inside, ?_, ?_⟩
  · intro member
    rcases List.mem_append.1 ((free_disposeAll a _) ▸ member) with gone | before
    · exact rooted.unreleased (List.mem_of_mem_filter gone)
    · exact rooted.unfree before
  · exact fun member => rooted.unreleased (List.mem_of_mem_filter member)

theorem release (rooted : a.Rooted) (h : Heap) (held : Holders) (id : ScopeId) :
    (a.release h held id).Rooted := by
  unfold Arena.release
  split
  · exact rooted
  · rename_i ends
    simp only
    split
    · have apart : Arena.root ≠ id := fun same => ends (by simp [same])
      refine ⟨((Clears.loosen a id).trans (.dispose ..)).size.symm ▸ rooted.inside, ?_, ?_⟩
      · rw [free_dispose, free_loosen]
        exact List.not_mem_cons_of_ne_of_not_mem apart rooted.unfree
      · rw [released_dispose, released_loosen]
        exact rooted.unreleased
    · split
      · exact rooted.retire id
      · exact (rooted.retire id).collect h held

end Rooted

end Arena

end Scriptlet
