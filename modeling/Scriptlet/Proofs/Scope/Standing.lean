import Scriptlet.Proofs.Scope.Held

/-!
Scopes that can be used, and scopes that go on.

A scope can be used as long as its record and all above it are allocated. `Grown` compares two
states of an arena: whatever ran in the first one goes on in the second one.
-/

namespace Scriptlet.Arena

variable {a b : Arena} {id x : ScopeId} {path : List ScopeId} {η : Handle} {refs : List Handle}

/-- A record and all that is above it is allocated. -/
def Stands (a : Arena) (id : ScopeId) : Prop :=
  ∃ path, a.Climbs id path ∧ ∀ x ∈ path, (a.record x).phase ≠ .free

theorem Stands.allocated (stands : a.Stands id) : (a.record id).phase ≠ .free := by
  obtain ⟨path, climbs, allocated⟩ := stands
  exact allocated id climbs.mem_self

theorem Stands.bind (stands : a.Stands id) (x : ScopeId) (name : String) (set : Binding) :
    (a.bind x name set).Stands id := by
  obtain ⟨path, climbs, allocated⟩ := stands
  refine ⟨path, climbs.congr fun y _ => parent_bind .., fun y on => ?_⟩
  rw [phase_bind]
  exact allocated y on

/-- What has a handle that is there stands. -/
theorem Linked.stands (linked : a.Linked refs) (chartered : a.Chartered)
    (handle : (a.record id).handle? = some η) (alive : η.Alive refs) : a.Stands id := by
  obtain ⟨path, climbs, there⟩ := linked.climbs chartered handle alive
  refine ⟨path, climbs, fun x on => ?_⟩
  obtain ⟨θ, known, -⟩ := there x on
  exact Record.allocated_iff.2 ⟨θ, known⟩

/-! ### Scopes that go on -/

/-- Every scope that was running still is, at the same place and with the same handle, and binds all
that it did. -/
structure Grown (a b : Arena) : Prop where
  mooring : ∀ id, (a.record id).phase = .running → (b.record id).mooring = (a.record id).mooring
  kind : ∀ id, (a.record id).phase = .running → (b.record id).kind = (a.record id).kind
  parent : ∀ id, (a.record id).phase = .running → (b.record id).parent = (a.record id).parent
  names : ∀ id name, (a.record id).phase = .running → a.binds id name = true →
    b.binds id name = true

namespace Grown

theorem running (grown : Grown a b) (running : (a.record id).phase = .running) :
    (b.record id).phase = .running := by
  rw [Record.phase, grown.mooring id running]
  exact running

theorem of_records (same : ∀ id, (a.record id).phase = .running → b.record id = a.record id) :
    Grown a b :=
  ⟨fun id running => by rw [same id running], fun id running => by rw [same id running],
    fun id running => by rw [same id running],
    fun id name running bound => by rwa [binds, same id running]⟩

theorem refl (a : Arena) : Grown a a :=
  .of_records fun _ _ => rfl

theorem trans {c : Arena} (first : Grown a b) (second : Grown b c) : Grown a c where
  mooring id runs := (second.mooring id (first.running runs)).trans (first.mooring id runs)
  kind id runs := (second.kind id (first.running runs)).trans (first.kind id runs)
  parent id runs := (second.parent id (first.running runs)).trans (first.parent id runs)
  names id name runs bound :=
    second.names id name (first.running runs) (first.names id name runs bound)

theorem openUnder (tidy : a.Tidy) (kind : ScopeKind) (parent : ScopeId) (η : Handle) :
    Grown a (a.openUnder kind parent η).2 := by
  refine .of_records fun id running => ?_
  rw [record_openUnder tidy, if_neg]
  rintro rfl
  rw [nextSlot_free tidy] at running
  cases running

theorem bind (a : Arena) (id : ScopeId) (name : String) (b : Binding) :
    Grown a (a.bind id name b) := by
  refine ⟨fun x _ => mooring_bind a id x name b, fun _ _ => kind_bind .., fun _ _ => parent_bind ..,
    fun x other _ bound => ?_⟩
  rw [binds, Table.contains] at bound ⊢
  rw [Arena.bind, record_modifyRecord]
  split
  · by_cases same : name = other
    · rw [same, Table.get?_insert_self]
      rfl
    · rwa [Table.get?_insert_of_ne _ same]
  · exact bound

end Grown

/-! ### Calls under way -/

/-- The running scopes of functions. -/
def openCalls (a : Arena) : List ScopeId :=
  a.runningIds.filter fun id => (a.record id).kind = .function

theorem mem_openCalls : id ∈ a.openCalls ↔
    (a.record id).phase = .running ∧ (a.record id).kind = .function := by
  simp [openCalls, mem_runningIds]

theorem nodup_openCalls (a : Arena) : a.openCalls.Nodup :=
  (a.nodup_ids.filter _).filter _

theorem length_openCalls_congr (same : ∀ id, id ∈ b.openCalls ↔ id ∈ a.openCalls) :
    b.openCalls.length = a.openCalls.length :=
  ((List.perm_ext_iff_of_nodup (nodup_openCalls b) (nodup_openCalls a)).2 same).length_eq

theorem Grown.length_openCalls (grown : a.Grown b)
    (running : ∀ id, (b.record id).phase = .running → (a.record id).phase = .running) :
    b.openCalls.length = a.openCalls.length := by
  refine length_openCalls_congr fun id => ?_
  rw [mem_openCalls, mem_openCalls]
  constructor
  · rintro ⟨runs, kind⟩
    exact ⟨running id runs, by rw [← grown.kind id (running id runs), kind]⟩
  · rintro ⟨runs, kind⟩
    exact ⟨grown.running runs, by rw [grown.kind id runs, kind]⟩

theorem mem_openCalls_openUnder (tidy : a.Tidy) (kind : ScopeKind) (parent : ScopeId) (η : Handle) :
    id ∈ (a.openUnder kind parent η).2.openCalls ↔
      id = a.nextSlot ∧ kind = .function ∨ id ∈ a.openCalls := by
  rw [mem_openCalls, mem_openCalls, record_openUnder tidy]
  by_cases same : id = a.nextSlot
  · subst same
    rw [if_pos rfl, phase_freshRecord, nextSlot_free tidy]
    simp [freshRecord]
  · simp [same]

theorem length_openCalls_block (tidy : a.Tidy) (parent : ScopeId) (η : Handle) :
    (a.openUnder .block parent η).2.openCalls.length = a.openCalls.length :=
  length_openCalls_congr fun id => by simp [mem_openCalls_openUnder tidy]

theorem length_openCalls_function (tidy : a.Tidy) (parent : ScopeId) (η : Handle) :
    (a.openUnder .function parent η).2.openCalls.length = a.openCalls.length + 1 := by
  have fresh : a.nextSlot ∉ a.openCalls := by simp [mem_openCalls, nextSlot_free tidy]
  have perm : (a.openUnder .function parent η).2.openCalls.Perm (a.nextSlot :: a.openCalls) := by
    refine (List.perm_ext_iff_of_nodup (nodup_openCalls _)
      (List.nodup_cons.2 ⟨fresh, nodup_openCalls a⟩)).2 fun id => ?_
    rw [mem_openCalls_openUnder tidy]
    simp
  exact perm.length_eq

end Scriptlet.Arena
