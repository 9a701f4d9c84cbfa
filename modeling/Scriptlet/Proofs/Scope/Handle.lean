import Scriptlet.Proofs.Scope.Chain
import Scriptlet.Scope.Retention

/-!
Handles and the records that have them.

A handle is there as long as something refers to it or to a handle below. `Chartered` says that the
handle which a record knows is its own, and `Linked` that the way up from a handle that is there
comes by the handles which the records above still know.
-/

namespace Scriptlet

namespace Handle

variable {η θ ξ : Handle} {refs refs' : List Handle}

theorem mem_chain_self (η : Handle) : η ∈ η.chain := by
  cases η <;> simp [chain]

theorem mem_chain_parent (on : θ ∈ η.chain) (above : θ.parent? = some ξ) : ξ ∈ η.chain := by
  induction η with
  | under number scope parent ih =>
    rcases List.mem_cons.1 on with rfl | on
    · cases above
      exact List.mem_cons_of_mem _ (mem_chain_self _)
    · exact List.mem_cons_of_mem _ (ih on)
  | top | slot =>
    rw [List.mem_singleton.1 on] at above
    cases above

/-- What is on the way up from a handle is the handle or right above something on the way. -/
theorem mem_chain_cases (on : θ ∈ η.chain) : θ = η ∨ ∃ ξ ∈ η.chain, ξ.parent? = some θ := by
  induction η with
  | under number scope parent ih =>
    rcases List.mem_cons.1 on with rfl | on
    · exact .inl rfl
    · rcases ih on with rfl | ⟨ξ, between, above⟩
      · exact .inr ⟨_, mem_chain_self _, rfl⟩
      · exact .inr ⟨ξ, List.mem_cons_of_mem _ between, above⟩
  | top | slot => exact .inl (List.mem_singleton.1 on)

theorem chain_trans (lower : θ ∈ η.chain) (upper : ξ ∈ θ.chain) : ξ ∈ η.chain := by
  induction θ with
  | under number scope parent ih =>
    rcases List.mem_cons.1 upper with rfl | upper
    · exact lower
    · exact ih (mem_chain_parent lower rfl) upper
  | top | slot =>
    rw [List.mem_singleton.1 upper]
    exact lower

theorem realm?_of_mem_chain (on : θ ∈ η.chain) : θ.realm? = η.realm? := by
  induction η with
  | under number scope parent ih =>
    rcases List.mem_cons.1 on with rfl | on
    · rfl
    · exact ih on
  | top | slot => rw [List.mem_singleton.1 on]

/-- A handle is there if one of `refs` is the handle or below it. -/
def Alive (refs : List Handle) (η : Handle) : Prop :=
  ∃ θ ∈ refs, η ∈ θ.chain

namespace Alive

theorem self (member : η ∈ refs) : η.Alive refs :=
  ⟨η, member, mem_chain_self η⟩

theorem parent (alive : η.Alive refs) (above : η.parent? = some θ) : θ.Alive refs := by
  obtain ⟨ξ, member, on⟩ := alive
  exact ⟨ξ, member, mem_chain_parent on above⟩

theorem of_all (alive : η.Alive refs) (all : ∀ θ ∈ refs, θ.Alive refs') : η.Alive refs' := by
  obtain ⟨θ, member, on⟩ := alive
  obtain ⟨ξ, there, above⟩ := all θ member
  exact ⟨ξ, there, chain_trans above on⟩

theorem mono (alive : η.Alive refs) (more : refs ⊆ refs') : η.Alive refs' :=
  alive.of_all fun _ member => self (more member)

theorem mem_flatMap (alive : η.Alive refs) : η ∈ refs.flatMap chain :=
  List.mem_flatMap.2 alive

end Alive

/-- There is a reference to a handle exactly if it is there. -/
theorem handleCount_pos_iff : 0 < Arena.handleCount refs η ↔ η.Alive refs := by
  have below : 0 <
    ((refs.flatMap chain).filter fun y => decide (y.parent? = some η)).eraseDups.length ↔
      ∃ θ : Handle, θ.Alive refs ∧ θ.parent? = some η := by
    rw [List.length_pos_iff_exists_mem]
    simp [List.mem_eraseDups, Alive]
  rw [Arena.handleCount, Nat.add_pos_iff_pos_or_pos, below, List.count_pos_iff]
  constructor
  · rintro (member | ⟨θ, alive, above⟩)
    · exact .self member
    · exact alive.parent above
  · rintro ⟨θ, member, on⟩
    rcases mem_chain_cases on with rfl | ⟨ξ, between, above⟩
    · exact .inl member
    · exact .inr ⟨ξ, ⟨θ, member, between⟩, above⟩

end Handle

namespace Arena

variable {a b : Arena} {id x : ScopeId} {η θ : Handle} {refs refs' : List Handle}

theorem isAlive_iff {h : Heap} {living : List Holding} {scopes : List ScopeId} :
    a.isAlive h living scopes η = true ↔ η.Alive (a.handles h living scopes) := by
  simp [isAlive, Handle.Alive]

/-- The record of a handle's scope knows the handle. -/
def IsCurrent (a : Arena) (η : Handle) : Prop :=
  (a.record η.scope).handle? = some η

theorem IsCurrent.allocated (current : a.IsCurrent η) : (a.record η.scope).phase ≠ .free :=
  Record.allocated_iff.2 ⟨η, current⟩

/-- The handle that a record knows is of its slot and of its arena, was made by the arena, and is
under the handle of the slot above. -/
structure Chartered (a : Arena) : Prop where
  scope : ∀ {id η}, (a.record id).handle? = some η → η.scope = id
  realm : ∀ {id η}, (a.record id).handle? = some η → η.realm? = some a.realm
  number : ∀ {id η}, (a.record id).handle? = some η → η.number < a.made
  parent : ∀ {id η}, (a.record id).handle? = some η →
    (a.record id).parent = η.parent?.map Handle.scope

/-- The handles above one that is there, of a record that knows it, are known to their records,
too. -/
def Linked (a : Arena) (refs : List Handle) : Prop :=
  ∀ η, a.IsCurrent η → η.Alive refs → ∀ θ, η.parent? = some θ → a.IsCurrent θ

theorem Chartered.isCurrent (chartered : a.Chartered) (handle : (a.record id).handle? = some η) :
    a.IsCurrent η := by
  rw [IsCurrent, chartered.scope handle, handle]

theorem IsCurrent.eq_of_scope (first : a.IsCurrent η) (second : a.IsCurrent θ)
    (same : η.scope = θ.scope) : η = θ := by
  rw [IsCurrent, same] at first
  exact Option.some.inj (first.symm.trans second)

theorem Linked.mono (linked : a.Linked refs') (fewer : ∀ η : Handle, η.Alive refs → η.Alive refs') :
    a.Linked refs :=
  fun η current alive θ above => linked η current (fewer η alive) θ above

/-- Up from a record with a handle that is there lead records with handles that are there. -/
theorem Linked.climbs (linked : a.Linked refs) (chartered : a.Chartered)
    (handle : (a.record id).handle? = some η) (alive : η.Alive refs) :
    ∃ path, a.Climbs id path ∧ ∀ x ∈ path, ∃ θ, (a.record x).handle? = some θ ∧ θ.Alive refs := by
  have here : ∃ θ, (a.record id).handle? = some θ ∧ θ.Alive refs := ⟨η, handle, alive⟩
  have above := chartered.parent handle
  induction η generalizing id with
  | under number scope parent ih =>
    have current : a.IsCurrent parent := linked _ (chartered.isCurrent handle) alive _ rfl
    have lives := alive.parent rfl
    obtain ⟨path, climbs, all⟩ :=
      ih current lives ⟨parent, current, lives⟩ (chartered.parent current)
    exact ⟨id :: path, .up above climbs, List.forall_mem_cons.2 ⟨here, all⟩⟩
  | top | slot => exact ⟨[id], .top above, List.forall_mem_singleton.2 here⟩

/-! ### What the operations do to handles -/

/-- The only handle of a new arena is that of its root. -/
theorem handle?_new {realm : Nat} (handle : ((Arena.new realm).record id).handle? = some η) :
    id = Arena.root ∧ η = .top realm 0 Arena.root := by
  by_cases same : id = Arena.root
  · subst same
    exact ⟨rfl, (Option.some.inj handle).symm⟩
  · rw [record_new same] at handle
    cases handle

theorem chartered_new (realm : Nat) : (Arena.new realm).Chartered := by
  refine ⟨fun handle => ?_, fun handle => ?_, fun handle => ?_, fun handle => ?_⟩ <;>
    obtain ⟨rfl, rfl⟩ := handle?_new handle
  · rfl
  · rfl
  · exact Nat.one_pos
  · rfl

theorem linked_new (realm : Nat) (refs : List Handle) : (Arena.new realm).Linked refs := by
  intro η current _ θ above
  rw [(handle?_new current).2] at above
  cases above

/-- Operations that leave handles and places keep the records chartered. -/
theorem Chartered.of_same (chartered : a.Chartered) (realm : b.realm = a.realm)
    (made : a.made ≤ b.made)
    (handle : ∀ id η, (b.record id).handle? = some η → (a.record id).handle? = some η)
    (parent : ∀ id, (b.record id).phase ≠ .free → (b.record id).parent = (a.record id).parent) :
    b.Chartered where
  scope known := chartered.scope (handle _ _ known)
  realm known := realm ▸ chartered.realm (handle _ _ known)
  number known := Nat.lt_of_lt_of_le (chartered.number (handle _ _ known)) made
  parent known := by
    rw [parent _ (Record.allocated_iff.2 ⟨_, known⟩)]
    exact chartered.parent (handle _ _ known)

theorem Linked.of_same (linked : a.Linked refs)
    (handle : ∀ id, (b.record id).handle? = (a.record id).handle?) : b.Linked refs := by
  intro η current alive θ above
  rw [IsCurrent, handle] at *
  exact linked η current alive θ above

theorem realm_bind (a : Arena) (id : ScopeId) (name : String) (b : Binding) :
    (a.bind id name b).realm = a.realm := rfl

theorem Chartered.bind (chartered : a.Chartered) (id : ScopeId) (name : String) (b : Binding) :
    (a.bind id name b).Chartered :=
  chartered.of_same (realm_bind ..) (Nat.le_refl _)
    (fun x η known => by rwa [handle?_bind] at known)
    fun x _ => parent_bind ..

theorem realm_loosen (a : Arena) (id : ScopeId) : (a.loosen id).realm = a.realm := by
  unfold loosen
  split <;> rfl

theorem made_loosen (a : Arena) (id : ScopeId) : (a.loosen id).made = a.made := by
  unfold loosen
  split <;> rfl

theorem realm_retire (a : Arena) (id : ScopeId) : (a.retire id).realm = a.realm := by
  unfold retire
  split
  · rfl
  · exact realm_loosen a id

theorem made_retire (a : Arena) (id : ScopeId) : (a.retire id).made = a.made := by
  unfold retire
  split
  · rfl
  · exact made_loosen a id

theorem Chartered.retire (chartered : a.Chartered) (id : ScopeId) : (a.retire id).Chartered :=
  chartered.of_same (realm_retire a id) (Nat.le_of_eq (made_retire a id).symm)
    (fun x η known => by rwa [handle?_retire] at known) fun x _ => parent_retire ..

theorem made_openUnder (a : Arena) (kind : ScopeKind) (parent : ScopeId) (η : Handle) :
    (a.openUnder kind parent η).2.made = a.made + 1 := by
  unfold openUnder
  split <;> rfl

theorem realm_openUnder (a : Arena) (kind : ScopeKind) (parent : ScopeId) (η : Handle) :
    (a.openUnder kind parent η).2.realm = a.realm := by
  unfold openUnder
  split <;> rfl

section Open

variable (tidy : a.Tidy) (chartered : a.Chartered) (kind : ScopeKind) {parent : ScopeId}
  (handle : (a.record parent).handle? = some η)

include tidy chartered handle in
theorem Chartered.openUnder : (a.openUnder kind parent η).2.Chartered := by
  have known {id : ScopeId} {θ : Handle}
      (there : ((a.openUnder kind parent η).2.record id).handle? = some θ) :
      id = a.nextSlot ∧ θ = a.freshHandle η ∨
        id ≠ a.nextSlot ∧ (a.record id).handle? = some θ := by
    rw [record_openUnder tidy] at there
    split at there
    · exact .inl ⟨‹_›, (Option.some.inj there).symm⟩
    · exact .inr ⟨‹_›, there⟩
  refine ⟨fun there => ?_, fun there => ?_, fun there => ?_, fun there => ?_⟩
  · rcases known there with ⟨rfl, rfl⟩ | ⟨_, old⟩
    · rfl
    · exact chartered.scope old
  · rw [realm_openUnder]
    rcases known there with ⟨rfl, rfl⟩ | ⟨_, old⟩
    · have above : η.realm? = some a.realm := chartered.realm handle
      exact above
    · exact chartered.realm old
  · rw [made_openUnder]
    rcases known there with ⟨rfl, rfl⟩ | ⟨_, old⟩
    · exact Nat.lt_succ_self _
    · exact Nat.lt_succ_of_lt (chartered.number old)
  · rw [record_openUnder tidy]
    rcases known there with ⟨rfl, rfl⟩ | ⟨apart, old⟩
    · rw [if_pos rfl]
      exact congrArg some (chartered.scope handle).symm
    · rw [if_neg apart]
      exact chartered.parent old

include tidy in
/-- Opening a scope leaves the handles that records know. -/
theorem isCurrent_openUnder (current : a.IsCurrent θ) :
    (a.openUnder kind parent η).2.IsCurrent θ := by
  have apart : θ.scope ≠ a.nextSlot := fun same => current.allocated (same ▸ nextSlot_free tidy)
  rw [IsCurrent, record_openUnder tidy, if_neg apart]
  exact current

include tidy chartered handle in
theorem Linked.openUnder (linked : a.Linked refs)
    (fewer : ∀ θ : Handle, θ.Alive refs' → θ = a.freshHandle η ∨ θ.Alive refs) :
    (a.openUnder kind parent η).2.Linked refs' := by
  intro θ current lives ξ above
  apply isCurrent_openUnder tidy
  by_cases new : θ.scope = a.nextSlot
  · -- the only handle of the slot is the new one
    rw [IsCurrent, record_openUnder tidy, if_pos new, handle?_freshRecord] at current
    obtain rfl := Option.some.inj current
    obtain rfl : η = ξ := Option.some.inj above
    exact chartered.isCurrent handle
  · rw [IsCurrent, record_openUnder tidy, if_neg new] at current
    refine linked θ current ((fewer θ lives).resolve_left ?_) ξ above
    rintro rfl
    exact new rfl

end Open

end Arena

end Scriptlet
