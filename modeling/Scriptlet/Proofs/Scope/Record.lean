import Scriptlet.Scope.Arena

/-!
What the operations of an arena do to its records.

Every operation is told by the records it leaves: opening a scope takes a free slot, ending one
lets go of its handle, freeing its slot clears its record, and all others change the bindings of
records that keep their place in the tree. `Tidy` says that the two lists of an arena agree with the
phases of its records; every operation keeps it.
-/

namespace Scriptlet

theorem ScopeId.index_inj {x y : ScopeId} : x.index = y.index ↔ x = y := by
  cases x
  cases y
  simp

namespace Record

variable {r : Record} {η : Handle}

theorem anchor?_eq_some_iff : r.anchor? = some η ↔ r.mooring = .anchored η := by
  unfold anchor?
  cases r.mooring <;> simp [Mooring.anchor?]

theorem running_iff : r.phase = .running ↔ ∃ η, r.anchor? = some η := by
  unfold phase anchor?
  cases r.mooring <;> simp [Mooring.phase, Mooring.anchor?]

theorem allocated_iff : r.phase ≠ .free ↔ ∃ η, r.handle? = some η := by
  unfold phase handle?
  cases r.mooring <;> simp [Mooring.phase, Mooring.handle?]

theorem free_iff : r.phase = .free ↔ r.handle? = none := by
  unfold phase handle?
  cases r.mooring <;> simp [Mooring.phase, Mooring.handle?]

theorem handle?_of_anchor? (anchored : r.anchor? = some η) : r.handle? = some η := by
  rw [anchor?_eq_some_iff] at anchored
  rw [handle?, anchored, Mooring.handle?]

theorem anchor?_of_running (running : r.phase = .running) (handle : r.handle? = some η) :
    r.anchor? = some η := by
  obtain ⟨θ, anchored⟩ := running_iff.1 running
  have same : some η = some θ := handle.symm.trans (handle?_of_anchor? anchored)
  rw [same, anchored]

end Record

namespace Arena

variable {a : Arena} {id x : ScopeId}

@[simp] theorem default_phase : (default : Record).phase = .free := rfl

theorem record_eq_default (outside : a.records.size ≤ id.index) : a.record id = default := by
  simp [record, Array.getElem?_eq_none outside]

/-- Only slots of the arena are allocated. -/
theorem lt_size_of_allocated (allocated : (a.record id).phase ≠ .free) :
    id.index < a.records.size := by
  refine Nat.lt_of_not_le fun outside => allocated ?_
  rw [record_eq_default outside, default_phase]

/-! ### Changing one record -/

@[simp] theorem size_modifyRecord (a : Arena) (id : ScopeId) (f : Record → Record) :
    (a.modifyRecord id f).records.size = a.records.size := by
  simp [modifyRecord]

theorem record_modifyRecord (a : Arena) (id x : ScopeId) (f : Record → Record) :
    (a.modifyRecord id f).record x =
      if x = id ∧ id.index < a.records.size then f (a.record x) else a.record x := by
  by_cases same : x = id
  · subst same
    simp only [record, modifyRecord, Array.getElem?_modify, if_true, true_and]
    by_cases inside : x.index < a.records.size
    · simp [inside]
    · simp [inside]
  · have apart : ¬id.index = x.index := fun equal => same (ScopeId.index_inj.1 equal).symm
    simp [record, modifyRecord, Array.getElem?_modify, apart, same]

theorem record_modifyRecord_self (inside : id.index < a.records.size) (f : Record → Record) :
    (a.modifyRecord id f).record id = f (a.record id) := by
  simp [record_modifyRecord, inside]

theorem record_modifyRecord_of_ne (apart : x ≠ id) (f : Record → Record) :
    (a.modifyRecord id f).record x = a.record x := by
  simp [record_modifyRecord, apart]

/-- What a change of one record leaves alone in it is left alone everywhere. -/
theorem modifyRecord_field {β : Type} (field : Record → β) {f : Record → Record}
    (untouched : ∀ r, field (f r) = field r) (a : Arena) (id x : ScopeId) :
    field ((a.modifyRecord id f).record x) = field (a.record x) := by
  rw [record_modifyRecord]
  split
  · exact untouched _
  · rfl

theorem modifyRecord_id (a : Arena) (id : ScopeId) : a.modifyRecord id (fun r => r) = a := by
  have same : a.records.modify id.index (fun r => r) = a.records := by
    refine Array.ext (Array.size_modify ..) fun i _ _ => ?_
    rw [Array.getElem_modify]
    exact ite_self _
  rw [modifyRecord, same]

theorem modifyRecord_modifyRecord (a : Arena) (id : ScopeId) (f g : Record → Record) :
    (a.modifyRecord id f).modifyRecord id g = a.modifyRecord id fun r => g (f r) := by
  have same : (a.records.modify id.index f).modify id.index g = a.records.modify id.index fun r =>
      g (f r) := by
    refine Array.ext (by simp) fun i _ _ => ?_
    simp only [Array.getElem_modify]
    split <;> rfl
  simp only [modifyRecord, same]

/-! ### Setting a binding -/

@[simp] theorem size_bind (a : Arena) (id : ScopeId) (name : String) (b : Binding) :
    (a.bind id name b).records.size = a.records.size :=
  size_modifyRecord ..

@[simp] theorem kind_bind (a : Arena) (id x : ScopeId) (name : String) (b : Binding) :
    ((a.bind id name b).record x).kind = (a.record x).kind :=
  modifyRecord_field Record.kind (by intro _; rfl) a id x

@[simp] theorem parent_bind (a : Arena) (id x : ScopeId) (name : String) (b : Binding) :
    ((a.bind id name b).record x).parent = (a.record x).parent :=
  modifyRecord_field Record.parent (by intro _; rfl) a id x

@[simp] theorem mooring_bind (a : Arena) (id x : ScopeId) (name : String) (b : Binding) :
    ((a.bind id name b).record x).mooring = (a.record x).mooring :=
  modifyRecord_field Record.mooring (by intro _; rfl) a id x

@[simp] theorem phase_bind (a : Arena) (id x : ScopeId) (name : String) (b : Binding) :
    ((a.bind id name b).record x).phase = (a.record x).phase :=
  congrArg Mooring.phase (mooring_bind ..)

@[simp] theorem handle?_bind (a : Arena) (id x : ScopeId) (name : String) (b : Binding) :
    ((a.bind id name b).record x).handle? = (a.record x).handle? :=
  congrArg Mooring.handle? (mooring_bind ..)

theorem bindings_bind_self (inside : id.index < a.records.size) (name : String) (b : Binding) :
    ((a.bind id name b).record id).bindings = (a.record id).bindings.insert name b := by
  rw [bind, record_modifyRecord_self inside]

/-! ### Handles -/

/-- A record has its handle at hand: its scope runs, or its last handle is still there. -/
def Moored (a : Arena) (alive : Handle → Bool) (id : ScopeId) (η : Handle) : Prop :=
  (a.record id).handle? = some η ∧ ((a.record id).phase = .running ∨ alive η = true)

variable {alive : Handle → Bool} {η : Handle}

theorem Moored.allocated (moored : a.Moored alive id η) : (a.record id).phase ≠ .free :=
  Record.allocated_iff.2 ⟨η, moored.1⟩

/-- A record that has its handle at hand is captured by it, and nothing changes. -/
theorem capture_eq (moored : a.Moored alive id η) : a.capture id alive = (η, a) := by
  have inside : a.records.size ≠ 0 := by
    have := lt_size_of_allocated moored.allocated
    omega
  obtain ⟨size, sized⟩ := Nat.exists_eq_succ_of_ne_zero inside
  obtain ⟨handle, there⟩ := moored
  unfold Record.handle? Record.phase at *
  rw [capture, sized, captureFrom]
  cases mooring : (a.record id).mooring with
  | none => simp [mooring, Mooring.handle?] at handle
  | weak θ =>
    simp only [mooring, Mooring.handle?, Option.some.injEq, Mooring.phase, reduceCtorEq, false_or]
      at handle there
    subst handle
    simp [there]
  | anchored θ =>
    simp only [mooring, Mooring.handle?, Option.some.injEq] at handle
    simp [handle]

/-! ### Opening a scope -/

/-- The slot of the next scope. -/
def nextSlot (a : Arena) : ScopeId :=
  a.free.head?.getD ⟨a.records.size⟩

/-- The lists of an arena hold the records in the phases they stand for. -/
structure Tidy (a : Arena) : Prop where
  free : ∀ id, id ∈ a.free ↔ id.index < a.records.size ∧ (a.record id).phase = .free
  free_nodup : a.free.Nodup
  released : ∀ id, id ∈ a.released ↔ (a.record id).phase = .released
  released_nodup : a.released.Nodup
  root : (a.record Arena.root).phase = .running

/-- The slots of a new arena but for that of its root. -/
theorem record_new {realm : Nat} (far : id ≠ Arena.root) :
    (Arena.new realm).record id = default := by
  apply record_eq_default
  have : ¬id.index = 0 := fun zero => far (ScopeId.index_inj.1 zero)
  simp only [new, List.size_toArray, List.length_cons, List.length_nil]
  omega

theorem tidy_new (realm : Nat) : (Arena.new realm).Tidy := by
  have root : ((Arena.new realm).record Arena.root).phase = .running := rfl
  have lists : (Arena.new realm).free = [] ∧ (Arena.new realm).released = [] := ⟨rfl, rfl⟩
  refine ⟨fun id => ?_, List.nodup_nil, fun id => ?_, List.nodup_nil, root⟩
  · rw [lists.1]
    by_cases same : id = Arena.root
    · subst same
      simp [root]
    · have far : ¬id.index = 0 := fun zero => same (ScopeId.index_inj.1 zero)
      simp [new]
      omega
  · rw [lists.2]
    by_cases same : id = Arena.root
    · subst same
      simp [root]
    · simp [record_new same]

/-- Under a record that has its handle at hand a scope is opened without making another one for
it. -/
theorem push_eq (kind : ScopeKind) {parent : ScopeId} (moored : a.Moored alive parent η) :
    a.push kind parent alive = a.openUnder kind parent η := by
  rw [push, capture_eq moored]

/-- The slots of an arena, and what is bound in them, are as they were. -/
structure SameSlots (a b : Arena) : Prop where
  size : b.records.size = a.records.size
  free : b.free = a.free
  released : b.released = a.released
  bindings : ∀ x, (b.record x).bindings = (a.record x).bindings

namespace SameSlots

variable {b c : Arena}

theorem refl (a : Arena) : SameSlots a a :=
  ⟨rfl, rfl, rfl, fun _ => rfl⟩

theorem trans (first : SameSlots a b) (second : SameSlots b c) : SameSlots a c :=
  ⟨second.size.trans first.size, second.free.trans first.free, second.released.trans first.released,
    fun x => (second.bindings x).trans (first.bindings x)⟩

theorem renew (a : Arena) (id : ScopeId) (parent : Option Handle) :
    SameSlots a (a.renew id parent).2 :=
  ⟨size_modifyRecord .., rfl, rfl,
    fun x => modifyRecord_field Record.bindings (by intro _; rfl) a id x⟩

theorem captureFrom (alive : Handle → Bool) (fuel : Nat) (a : Arena) (id : ScopeId) :
    SameSlots a (Arena.captureFrom alive fuel a id).2 := by
  induction fuel generalizing a id with
  | zero => exact .renew a id none
  | succ fuel ih =>
    unfold Arena.captureFrom
    cases (a.record id).mooring with
    | anchored η => exact .refl a
    | none =>
      simp only
      split
      · exact .renew a id none
      · exact (ih a _).trans (.renew ..)
    | weak η =>
      simp only
      split
      · exact .refl a
      · split
        · exact .renew a id none
        · exact (ih a _).trans (.renew ..)

/-- Looking for a handle leaves the slots as they are. -/
theorem capture (a : Arena) (id : ScopeId) (alive : Handle → Bool) :
    SameSlots a (a.capture id alive).2 :=
  captureFrom alive a.records.size a id

theorem nextSlot (same : SameSlots a b) : b.nextSlot = a.nextSlot := by
  rw [Arena.nextSlot, Arena.nextSlot, same.free, same.size]

end SameSlots

theorem openUnder_fst (a : Arena) (kind : ScopeKind) (parent : ScopeId) (η : Handle) :
    (a.openUnder kind parent η).1 = a.nextSlot := by
  unfold openUnder nextSlot
  split <;> simp_all

theorem push_fst (a : Arena) (kind : ScopeKind) (parent : ScopeId) (alive : Handle → Bool) :
    (a.push kind parent alive).1 = a.nextSlot := by
  have same : (a.push kind parent alive).1 = (a.capture parent alive).2.nextSlot := openUnder_fst ..
  rw [same, (SameSlots.capture a parent alive).nextSlot]

/-- The record of a scope that has just been opened. -/
def freshRecord (kind : ScopeKind) (parent : ScopeId) (handle : Handle) : Record :=
  { kind := kind, parent := some parent, mooring := .anchored handle }

/-- The handle of the next scope, if it is opened under the scope of `above`. -/
def freshHandle (a : Arena) (above : Handle) : Handle :=
  .under a.made a.nextSlot above

@[simp] theorem phase_freshRecord (kind : ScopeKind) (parent : ScopeId) (handle : Handle) :
    (freshRecord kind parent handle).phase = .running := rfl

@[simp] theorem handle?_freshRecord (kind : ScopeKind) (parent : ScopeId) (handle : Handle) :
    (freshRecord kind parent handle).handle? = some handle := rfl

theorem record_openUnder_of_ne (apart : x ≠ a.nextSlot) (kind : ScopeKind) (parent : ScopeId)
    (η : Handle) : (a.openUnder kind parent η).2.record x = a.record x := by
  unfold openUnder
  unfold nextSlot at apart
  split
  · rename_i slot rest taken
    simp only [taken, List.head?_cons, Option.getD_some] at apart
    have apart : ¬slot.index = x.index := fun equal => apart (ScopeId.index_inj.1 equal).symm
    simp [record, apart]
  · rename_i none
    simp only [none, List.head?_nil, Option.getD_none] at apart
    have apart : ¬x.index = a.records.size := fun equal => apart (ScopeId.index_inj.1 equal)
    simp [record, Array.getElem?_push, apart]

theorem record_openUnder (tidy : a.Tidy) (kind : ScopeKind) (parent x : ScopeId) (η : Handle) :
    (a.openUnder kind parent η).2.record x =
      if x = a.nextSlot then freshRecord kind parent (a.freshHandle η) else a.record x := by
  by_cases same : x = a.nextSlot
  · rw [if_pos same, same]
    unfold openUnder freshHandle nextSlot
    split
    · rename_i slot rest taken
      have inside : slot.index < a.records.size :=
        ((tidy.free slot).1 (by simp [taken])).1
      simp [taken, record, inside, freshRecord, nextHandle]
    · rename_i none
      simp [none, record, freshRecord, nextHandle]
  · rw [if_neg same, record_openUnder_of_ne same]

/-- The next scope takes a slot that nothing uses. -/
theorem nextSlot_free (tidy : a.Tidy) : (a.record a.nextSlot).phase = .free := by
  unfold nextSlot
  cases free : a.free with
  | nil => simp [record_eq_default]
  | cons slot rest => exact ((tidy.free slot).1 (by simp [free])).2

theorem nextSlot_ne_root (tidy : a.Tidy) : a.nextSlot ≠ Arena.root := by
  intro same
  have free := nextSlot_free tidy
  rw [same, tidy.root] at free
  cases free

@[simp] theorem released_openUnder (a : Arena) (kind : ScopeKind) (parent : ScopeId) (η : Handle) :
    (a.openUnder kind parent η).2.released = a.released := by
  unfold openUnder
  split <;> rfl

/-- The slot of the scope is not free any more. -/
theorem mem_free_openUnder (tidy : a.Tidy) (kind : ScopeKind) (parent : ScopeId) (η : Handle) :
    id ∈ (a.openUnder kind parent η).2.free ↔ id ∈ a.free ∧ id ≠ a.nextSlot := by
  unfold openUnder
  split
  · rename_i slot rest taken
    have distinct := tidy.free_nodup
    rw [taken] at distinct
    have once : slot ∉ rest := (List.nodup_cons.1 distinct).1
    simp only [nextSlot, taken, List.head?_cons, Option.getD_some, List.mem_cons]
    constructor
    · intro member
      exact ⟨.inr member, fun same => once (same ▸ member)⟩
    · rintro ⟨same | member, other⟩
      · exact absurd same other
      · exact member
  · rename_i none
    simp [none]

theorem lt_size_openUnder (other : id ≠ a.nextSlot) (kind : ScopeKind) (parent : ScopeId)
    (η : Handle) :
    id.index < (a.openUnder kind parent η).2.records.size ↔ id.index < a.records.size := by
  unfold openUnder
  split
  · rw [Array.size_setIfInBounds]
  · rename_i none
    simp only [nextSlot, none, List.head?_nil, Option.getD_none] at other
    have far : ¬id.index = a.records.size := fun equal => other (ScopeId.index_inj.1 equal)
    rw [Array.size_push]
    omega

theorem tidy_openUnder (tidy : a.Tidy) (kind : ScopeKind) (parent : ScopeId) (η : Handle) :
    (a.openUnder kind parent η).2.Tidy := by
  refine ⟨fun id => ?_, ?_, fun id => ?_, ?_, ?_⟩
  · rw [mem_free_openUnder tidy, record_openUnder tidy, tidy.free]
    by_cases same : id = a.nextSlot
    · simp [same]
    · rw [if_neg same, lt_size_openUnder same]
      exact and_iff_left same
  · unfold openUnder
    split
    · rename_i slot rest taken
      have distinct := tidy.free_nodup
      rw [taken] at distinct
      exact (List.nodup_cons.1 distinct).2
    · exact tidy.free_nodup
  · rw [released_openUnder, record_openUnder tidy, tidy.released]
    split
    · rename_i same
      simp [same, nextSlot_free tidy]
    · rfl
  · rw [released_openUnder]
    exact tidy.released_nodup
  · rw [record_openUnder tidy, if_neg (nextSlot_ne_root tidy).symm]
    exact tidy.root

/-- Operations that touch neither the lists nor the phases keep an arena tidy. -/
theorem Tidy.of_same {a b : Arena} (tidy : a.Tidy) (size : b.records.size = a.records.size)
    (free : b.free = a.free) (released : b.released = a.released)
    (phase : ∀ x, (b.record x).phase = (a.record x).phase) : b.Tidy := by
  refine ⟨fun id => ?_, by rw [free]; exact tidy.free_nodup, fun id => ?_,
    by rw [released]; exact tidy.released_nodup, by rw [phase]; exact tidy.root⟩
  · rw [free, size, phase]
    exact tidy.free id
  · rw [released, phase]
    exact tidy.released id

theorem tidy_bind (tidy : a.Tidy) (id : ScopeId) (name : String) (b : Binding) :
    (a.bind id name b).Tidy :=
  tidy.of_same (size_bind ..) rfl rfl (phase_bind a id · name b)

/-! ### Freeing a slot -/

/-- What is left of the record of a scope when its slot is freed. -/
def clearedRecord (r : Record) : Record :=
  { kind := r.kind, parent := none, mooring := .none }

@[simp] theorem phase_clearedRecord (r : Record) : (clearedRecord r).phase = .free := rfl

@[simp] theorem handle?_clearedRecord (r : Record) : (clearedRecord r).handle? = none := rfl

theorem record_dispose (a : Arena) (id x : ScopeId) :
    (a.dispose id).record x =
      if x = id ∧ id.index < a.records.size then clearedRecord (a.record x) else a.record x :=
  record_modifyRecord a id x clearedRecord

theorem record_dispose_of_ne (apart : x ≠ id) : (a.dispose id).record x = a.record x := by
  simp [record_dispose, apart]

theorem phase_dispose_self (a : Arena) (id : ScopeId) :
    ((a.dispose id).record id).phase = .free := by
  rw [record_dispose]
  split
  · rfl
  · rename_i outside
    rw [record_eq_default (Nat.le_of_not_lt fun inside => outside ⟨rfl, inside⟩), default_phase]

@[simp] theorem size_dispose (a : Arena) (id : ScopeId) :
    (a.dispose id).records.size = a.records.size :=
  size_modifyRecord ..

@[simp] theorem free_dispose (a : Arena) (id : ScopeId) : (a.dispose id).free = id :: a.free := rfl

@[simp] theorem released_dispose (a : Arena) (id : ScopeId) :
    (a.dispose id).released = a.released := rfl

/-- The free list after the slot of an allocated record is freed. -/
theorem mem_free_dispose (free : ∀ id, id ∈ a.free ↔
      id.index < a.records.size ∧ (a.record id).phase = .free)
    (allocated : (a.record id).phase ≠ .free) (x : ScopeId) :
    x ∈ (a.dispose id).free ↔
      x.index < (a.dispose id).records.size ∧ ((a.dispose id).record x).phase = .free := by
  rw [free_dispose, size_dispose, List.mem_cons, free]
  by_cases same : x = id
  · subst same
    simp [phase_dispose_self, lt_size_of_allocated allocated]
  · simp [same, record_dispose_of_ne same]

/-! ### Ending a scope -/

/-- A record whose scope has ended: it keeps its handle no longer. -/
def endedRecord (r : Record) : Record :=
  { r with mooring := r.mooring.loosened }

@[simp] theorem handle?_endedRecord (r : Record) : (endedRecord r).handle? = r.handle? := by
  unfold endedRecord Record.handle?
  cases r.mooring <;> rfl

theorem phase_endedRecord {r : Record} (running : r.phase = .running) :
    (endedRecord r).phase = .released := by
  unfold endedRecord Record.phase at *
  cases mooring : r.mooring with
  | anchored η => rfl
  | none | weak η => simp [mooring, Mooring.phase] at running

theorem endedRecord_not_running (r : Record) : (endedRecord r).phase ≠ .running := by
  unfold endedRecord Record.phase
  cases r.mooring <;> simp [Mooring.loosened, Mooring.phase]

theorem record_loosen (apart : id ≠ Arena.root) (x : ScopeId) :
    (a.loosen id).record x =
      if x = id ∧ id.index < a.records.size then endedRecord (a.record x) else a.record x := by
  simp only [loosen, beq_iff_eq, apart, if_false]
  exact record_modifyRecord a id x endedRecord

theorem record_loosen_of_ne (apart : x ≠ id) : (a.loosen id).record x = a.record x := by
  unfold loosen
  split
  · rfl
  · exact record_modifyRecord_of_ne apart _

/-- The end of a scope leaves all of a record but that it runs. -/
theorem record_loosen_cases (a : Arena) (id x : ScopeId) :
    (a.loosen id).record x = a.record x ∨
      (x = id ∧ id ≠ Arena.root ∧ (a.loosen id).record x = endedRecord (a.record x)) := by
  by_cases root : id = Arena.root
  · subst root
    exact .inl (by simp [loosen])
  · rw [record_loosen root]
    split
    · rename_i here
      exact .inr ⟨here.1, root, rfl⟩
    · exact .inl rfl

@[simp] theorem handle?_loosen (a : Arena) (id x : ScopeId) :
    ((a.loosen id).record x).handle? = (a.record x).handle? := by
  rcases record_loosen_cases a id x with same | ⟨_, _, ended⟩
  · rw [same]
  · rw [ended, handle?_endedRecord]

@[simp] theorem bindings_loosen (a : Arena) (id x : ScopeId) :
    ((a.loosen id).record x).bindings = (a.record x).bindings := by
  rcases record_loosen_cases a id x with same | ⟨_, _, ended⟩
  · rw [same]
  · rw [ended, endedRecord]

@[simp] theorem size_loosen (a : Arena) (id : ScopeId) :
    (a.loosen id).records.size = a.records.size := by
  unfold loosen
  split
  · rfl
  · exact size_modifyRecord ..

@[simp] theorem free_loosen (a : Arena) (id : ScopeId) : (a.loosen id).free = a.free := by
  unfold loosen
  split <;> rfl

@[simp] theorem released_loosen (a : Arena) (id : ScopeId) :
    (a.loosen id).released = a.released := by
  unfold loosen
  split <;> rfl

/-- Ending a scope that does not run, or the root, changes nothing. -/
theorem retire_of_not_running (idle : (a.record id).phase ≠ .running) : a.retire id = a := by
  simp [retire, idle]

@[simp] theorem retire_root (a : Arena) : a.retire Arena.root = a := by
  simp [retire]

theorem retire_eq (apart : id ≠ Arena.root) (running : (a.record id).phase = .running) :
    a.retire id = { a.loosen id with released := id :: a.released } := by
  simp [retire, apart, running]

theorem record_retire_of_ne (apart : x ≠ id) : (a.retire id).record x = a.record x := by
  unfold retire
  split
  · rfl
  · exact record_loosen_of_ne apart

theorem record_retire (apart : id ≠ Arena.root) (running : (a.record id).phase = .running) :
    (a.retire id).record id = endedRecord (a.record id) := by
  have inside : id.index < a.records.size := lt_size_of_allocated (by simp [running])
  rw [retire_eq apart running]
  exact (record_loosen apart id).trans (if_pos ⟨rfl, inside⟩)

/-- The end of a scope leaves all of a record but that it runs. -/
theorem record_retire_cases (a : Arena) (id x : ScopeId) :
    (a.retire id).record x = a.record x ∨
      (x = id ∧ id ≠ Arena.root ∧ (a.record x).phase = .running ∧
        (a.retire id).record x = endedRecord (a.record x)) := by
  by_cases same : x = id
  · subst same
    by_cases root : x = Arena.root
    · subst root
      exact .inl (by rw [retire_root])
    by_cases running : (a.record x).phase = .running
    · exact .inr ⟨rfl, root, running, record_retire root running⟩
    · exact .inl (by rw [retire_of_not_running running])
  · exact .inl (record_retire_of_ne same)

@[simp] theorem handle?_retire (a : Arena) (id x : ScopeId) :
    ((a.retire id).record x).handle? = (a.record x).handle? := by
  rcases record_retire_cases a id x with same | ⟨_, _, _, ended⟩
  · rw [same]
  · rw [ended, handle?_endedRecord]

@[simp] theorem parent_retire (a : Arena) (id x : ScopeId) :
    ((a.retire id).record x).parent = (a.record x).parent := by
  rcases record_retire_cases a id x with same | ⟨_, _, _, ended⟩
  · rw [same]
  · rw [ended, endedRecord]

@[simp] theorem bindings_retire (a : Arena) (id x : ScopeId) :
    ((a.retire id).record x).bindings = (a.record x).bindings := by
  rcases record_retire_cases a id x with same | ⟨_, _, _, ended⟩
  · rw [same]
  · rw [ended, endedRecord]

/-- The slot of a scope stays allocated when the scope ends. -/
theorem free_retire_iff (a : Arena) (id x : ScopeId) :
    ((a.retire id).record x).phase = .free ↔ (a.record x).phase = .free := by
  rw [Record.free_iff, Record.free_iff, handle?_retire]

theorem running_of_retire (running : ((a.retire id).record x).phase = .running) :
    (a.record x).phase = .running := by
  rcases record_retire_cases a id x with same | ⟨_, _, runs, _⟩
  · rwa [same] at running
  · exact runs

@[simp] theorem size_retire (a : Arena) (id : ScopeId) :
    (a.retire id).records.size = a.records.size := by
  unfold retire
  split
  · rfl
  · exact size_loosen ..

@[simp] theorem free_retire (a : Arena) (id : ScopeId) : (a.retire id).free = a.free := by
  unfold retire
  split
  · rfl
  · exact free_loosen ..

/-- A scope that has ended does not run. -/
theorem phase_retire_self (apart : id ≠ Arena.root) :
    ((a.retire id).record id).phase ≠ .running := by
  by_cases running : (a.record id).phase = .running
  · rw [record_retire apart running]
    exact endedRecord_not_running _
  · rwa [retire_of_not_running running]

theorem tidy_retire (tidy : a.Tidy) (id : ScopeId) : (a.retire id).Tidy := by
  by_cases same : id = Arena.root
  · subst same
    rwa [retire_root]
  by_cases idle : (a.record id).phase ≠ .running
  · rwa [retire_of_not_running idle]
  have running : (a.record id).phase = .running := Decidable.of_not_not idle
  have ended : ((a.retire id).record id).phase = .released := by
    rw [record_retire same running]
    exact phase_endedRecord running
  have lists : (a.retire id).released = id :: a.released := by rw [retire_eq same running]
  have unreleased : id ∉ a.released := by simp [tidy.released, running]
  refine ⟨fun x => ?_, ?_, fun x => ?_, ?_, ?_⟩
  · rw [free_retire, size_retire, free_retire_iff]
    exact tidy.free x
  · rw [free_retire]
    exact tidy.free_nodup
  · rw [lists, List.mem_cons, tidy.released]
    by_cases equal : x = id
    · subst equal
      simp [ended]
    · rw [record_retire_of_ne equal]
      simp [equal]
  · rw [lists]
    exact List.nodup_cons.2 ⟨unreleased, tidy.released_nodup⟩
  · rw [record_retire_of_ne (Ne.symm same)]
    exact tidy.root

/-- Ending a scope and freeing its slot at once. -/
theorem tidy_dispose_loosen (tidy : a.Tidy) (apart : id ≠ Arena.root)
    (running : (a.record id).phase = .running) : ((a.loosen id).dispose id).Tidy := by
  have unreleased : id ∉ a.released := by simp [tidy.released, running]
  have allocated : ((a.loosen id).record id).phase ≠ .free := by
    rw [Ne, Record.free_iff, handle?_loosen, ← Record.free_iff, running]
    simp
  have same {x : ScopeId} (other : x ≠ id) : ((a.loosen id).dispose id).record x = a.record x := by
    rw [record_dispose_of_ne other, record_loosen_of_ne other]
  refine ⟨mem_free_dispose (fun x => ?_) allocated, ?_, fun x => ?_, ?_, ?_⟩
  · rw [free_loosen, size_loosen, Record.free_iff, handle?_loosen, ← Record.free_iff]
    exact tidy.free x
  · rw [free_dispose, free_loosen]
    refine List.nodup_cons.2 ⟨?_, tidy.free_nodup⟩
    simp [tidy.free, running]
  · rw [released_dispose, released_loosen, tidy.released]
    by_cases equal : x = id
    · subst equal
      simp [phase_dispose_self, running]
    · rw [same equal]
  · rw [released_dispose, released_loosen]
    exact tidy.released_nodup
  · rw [same (Ne.symm apart)]
    exact tidy.root

end Arena

end Scriptlet
