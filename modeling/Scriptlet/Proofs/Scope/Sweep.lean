import Scriptlet.Proofs.Scope.Change

/-!
Freeing records that nothing holds.

Freeing slots clears their records. As long as nothing holds them, what is held stays as it is. Main
statement: `Safe.sweep`, that this keeps an arena safe, if the way up from what stays stays.
-/

namespace Scriptlet

variable {a b c : Arena} {h : Heap} {held : Holders}

/-- All records are as they were, but for some that nothing held and that are cleared. -/
structure Sweeps (h : Heap) (held : Holders) (a b : Arena) : Prop where
  realm : b.realm = a.realm
  made : b.made = a.made
  cleared : ∀ id, b.record id = a.record id ∨
    (¬Held a h held (.scope id) ∧ b.record id = Arena.clearedRecord (a.record id))

namespace Sweeps

theorem refl (a : Arena) : Sweeps h held a a :=
  ⟨rfl, rfl, fun _ => .inl rfl⟩

theorem record (sweeps : Sweeps h held a b) {id : ScopeId} (holds : Held a h held (.scope id)) :
    b.record id = a.record id :=
  (sweeps.cleared id).resolve_right fun cleared => cleared.1 holds

/-- A record that is not clear afterwards was the same before. -/
theorem record_of_allocated (sweeps : Sweeps h held a b) {id : ScopeId}
    (allocated : (b.record id).phase ≠ .free) : b.record id = a.record id := by
  rcases sweeps.cleared id with same | ⟨_, cleared⟩
  · exact same
  · rw [cleared] at allocated
    exact absurd rfl allocated

/-- The bindings that are left were there before. -/
theorem mem_bindings (sweeps : Sweeps h held a b) {id : ScopeId} {bound : Binding}
    (member : bound ∈ (b.record id).bindings.values) : bound ∈ (a.record id).bindings.values := by
  rcases sweeps.cleared id with same | ⟨_, cleared⟩
  · rwa [same] at member
  · rw [cleared] at member
    exact absurd member List.not_mem_nil

theorem refers (sweeps : Sweeps h held a b) {x y : Holding} (refers : Refers b h x y) :
    Refers a h x y := by
  cases x with
  | scope id =>
    rcases sweeps.cleared id with same | ⟨_, cleared⟩
    · exact refers.of_unchanged sweeps.realm ⟨by rw [same], by rw [same]⟩
    · cases refers with
      | parent above =>
        rw [cleared] at above
        cases above
      | binding member refers => exact .binding (sweeps.mem_bindings member) refers
  | array | object | function => exact refers.of_unchanged sweeps.realm rfl

/-- Clearing what nothing holds does not change what is held. -/
theorem held_iff (sweeps : Sweeps h held a b) {x : Holding} :
    Held b h held x ↔ Held a h held x := by
  constructor
  · intro holds
    induction holds with
    | root isRoot =>
      cases isRoot with
      | running running =>
        have same := sweeps.record_of_allocated (by rw [running]; simp)
        exact .root (.running (same ▸ running))
      | handle member => exact .root (.handle member)
      | value member refers => exact .root (.value member refers)
    | step _ refers ih => exact .step ih (sweeps.refers refers)
  · intro holds
    induction holds with
    | root isRoot =>
      cases isRoot with
      | @running id running =>
        have same := sweeps.record (.root (.running running))
        exact .root (.running (same ▸ running))
      | handle member => exact .root (.handle member)
      | value member refers => exact .root (.value member refers)
    | step before refers ih =>
      refine .step ih (refers.of_unchanged sweeps.realm.symm (unchanged_of_records ?_))
      rintro id rfl
      exact ⟨by rw [sweeps.record before], by rw [sweeps.record before]⟩

theorem chartered (sweeps : Sweeps h held a b) (chartered : a.Chartered) : b.Chartered := by
  refine chartered.of_same sweeps.realm (Nat.le_of_eq sweeps.made.symm) (fun id η known => ?_)
    fun id allocated => by rw [sweeps.record_of_allocated allocated]
  rwa [sweeps.record_of_allocated (Record.allocated_iff.2 ⟨η, known⟩)] at known

/-- Nothing that was dropped is there again. -/
theorem living (sweeps : Sweeps h held a b) {x : Holding} (living : x ∈ b.living h held.values) :
    x ∈ a.living h held.values := by
  refine (Arena.living_within (fun _ => False) (fun _ => False) (fun _ => False.elim)
    (fun _ => .inl) (fun x outer => ?_) (fun x y content => .inl ⟨False.elim, content⟩)
    living).resolve_right id
  rcases Arena.outer_cases outer with ⟨v, member, refers⟩ | ⟨id, bound, member, refers⟩
  · exact .inl (Arena.mem_outer_value member refers)
  · exact .inl (Arena.mem_outer_binding (sweeps.mem_bindings member) refers)

theorem alive (sweeps : Sweeps h held a b) {η : Handle} (alive : η.Alive (b.refs h held)) :
    η.Alive (a.refs h held) := by
  refine alive.mono fun θ member => ?_
  have known {id : ScopeId} (there : (b.record id).handle? = some θ) : b.record id = a.record id :=
    sweeps.record_of_allocated (Record.allocated_iff.2 ⟨θ, there⟩)
  rcases Arena.mem_handles.1 member with ⟨id, anchored⟩ | ⟨r, f, living, found, made⟩ |
    ⟨id, there, handle⟩
  · rw [known (Record.handle?_of_anchor? anchored)] at anchored
    exact Arena.mem_handles.2 (.inl ⟨id, anchored⟩)
  · exact Arena.mem_handles.2 (.inr (.inl ⟨r, f, sweeps.living living, found, made⟩))
  · rw [known handle] at handle
    exact Arena.mem_handles.2 (.inr (.inr ⟨id, there, handle⟩))

end Sweeps

/-- Clearing what nothing holds keeps everything safe, as long as the way up from what stays
stays. -/
theorem Safe.sweep (safe : Safe a h held) (tidy : b.Tidy) (sweeps : Sweeps h held a b)
    (linked : b.Linked (a.refs h held)) : Safe b h held where
  tidy := tidy
  chartered := sweeps.chartered safe.chartered
  linked := linked.mono fun _ => sweeps.alive
  pinned := safe.pinned
  scopes id member := by
    rw [sweeps.record (.root (.handle member))]
    exact safe.scopes id member
  current r f η holds found made own := by
    have before := sweeps.held_iff.1 holds
    have own' : η.realm? = some a.realm := sweeps.realm ▸ own
    rw [Arena.IsCurrent, sweeps.record (.step before (.closure found made own'))]
    exact safe.current r f η before found made own'

/-! ### Freeing several slots -/

/-- Frees the slots of the listed records, the last one first. -/
def Arena.disposeAll (a : Arena) (gone : List ScopeId) : Arena :=
  gone.foldr (fun id a => a.dispose id) a

namespace Arena

@[simp] theorem disposeAll_cons (a : Arena) (id : ScopeId) (gone : List ScopeId) :
    a.disposeAll (id :: gone) = (a.disposeAll gone).dispose id := rfl

variable {id : ScopeId}

theorem free_disposeAll (a : Arena) (gone : List ScopeId) :
    (a.disposeAll gone).free = gone ++ a.free := by
  induction gone with
  | nil => rfl
  | cons id gone ih => rw [disposeAll_cons, free_dispose, ih, List.cons_append]

theorem size_disposeAll (a : Arena) (gone : List ScopeId) :
    (a.disposeAll gone).records.size = a.records.size := by
  induction gone with
  | nil => rfl
  | cons id gone ih => rw [disposeAll_cons, size_dispose, ih]

theorem record_disposeAll (a : Arena) {gone : List ScopeId}
    (allocated : ∀ id ∈ gone, (a.record id).phase ≠ .free) (x : ScopeId) :
    (a.disposeAll gone).record x =
      if x ∈ gone then clearedRecord (a.record x) else a.record x := by
  induction gone with
  | nil => rfl
  | cons id gone ih =>
    have before := ih fun y member => allocated y (List.mem_cons_of_mem _ member)
    have inside : id.index < (a.disposeAll gone).records.size := by
      rw [size_disposeAll]
      exact lt_size_of_allocated (allocated id List.mem_cons_self)
    rw [disposeAll_cons, record_dispose, before]
    by_cases same : x = id
    · subst same
      rw [if_pos ⟨rfl, inside⟩, if_pos List.mem_cons_self]
      split <;> rfl
    · simp [same]

theorem tidy_disposeAll {a : Arena} (tidy : a.Tidy) {kept gone : List ScopeId} {collectAt : Nat}
    (distinct : gone.Nodup) (split : ∀ id, id ∈ a.released ↔ id ∈ kept ∨ id ∈ gone)
    (apart : ∀ id ∈ kept, id ∉ gone) (keptOnce : kept.Nodup) :
    Tidy { a.disposeAll gone with released := kept, collectAt := collectAt } := by
  have released {id : ScopeId} (member : id ∈ gone) : (a.record id).phase = .released :=
    (tidy.released id).1 ((split id).2 (.inr member))
  have allocated : ∀ id ∈ gone, (a.record id).phase ≠ .free := fun id member => by
    simp [released member]
  have records (x : ScopeId) :
      record { a.disposeAll gone with released := kept, collectAt := collectAt } x =
        if x ∈ gone then clearedRecord (a.record x) else a.record x :=
    record_disposeAll a allocated x
  refine ⟨fun id => ?_, ?_, fun id => ?_, keptOnce, ?_⟩
  · rw [records, free_disposeAll, size_disposeAll, List.mem_append, tidy.free]
    split
    · rename_i member
      simp [member, lt_size_of_allocated (allocated id member)]
    · rename_i stays
      simp [stays]
  · rw [free_disposeAll]
    refine List.nodup_append.2 ⟨distinct, tidy.free_nodup, fun x member y free same => ?_⟩
    subst same
    exact allocated x member ((tidy.free x).1 free).2
  · rw [records]
    split
    · rename_i member
      simp only [phase_clearedRecord, reduceCtorEq, iff_false]
      exact fun stays => apart id stays member
    · rename_i stays
      rw [← tidy.released, split id]
      simp [stays]
  · rw [records, if_neg]
    · exact tidy.root
    · intro member
      have := released member
      simp [tidy.root] at this

theorem record_keep (tidy : a.Tidy) (live : List Holding) (id : ScopeId) :
    (a.keep live).record id =
      if id ∈ a.released ∧ .scope id ∉ live then clearedRecord (a.record id) else a.record id := by
  refine (record_disposeAll a (fun x member => ?_) id).trans ?_
  · have released := (tidy.released x).1 (List.mem_of_mem_filter member)
    simp [released]
  · simp only [List.mem_filter, Bool.not_eq_true', decide_eq_false_iff_not]

theorem record_keep_cases (tidy : a.Tidy) (live : List Holding) (id : ScopeId) :
    (a.keep live).record id = a.record id ∨
      id ∈ a.released ∧ .scope id ∉ live ∧
      (a.keep live).record id = clearedRecord (a.record id) := by
  rw [record_keep tidy]
  split
  · rename_i gone
    exact .inr ⟨gone.1, gone.2, rfl⟩
  · exact .inl rfl

theorem allocated_keep (tidy : a.Tidy) (live : List Holding) {id : ScopeId}
    (released : id ∈ a.released) : ((a.keep live).record id).phase ≠ .free ↔ .scope id ∈ live := by
  have phase := (tidy.released id).1 released
  rw [record_keep tidy]
  by_cases stays : .scope id ∈ live <;> simp [released, stays, phase]

/-- Which records stay settles all of the outcome. -/
theorem keep_congr {live live' : List Holding}
    (same : ∀ id ∈ a.released, .scope id ∈ live ↔ .scope id ∈ live') :
    a.keep live = a.keep live' := by
  have kept : (a.released.filter fun id => decide (.scope id ∈ live)) =
      a.released.filter fun id => decide (.scope id ∈ live') :=
    List.filter_congr fun id released => decide_eq_decide.2 (same id released)
  have gone : (a.released.filter fun id => !decide (.scope id ∈ live)) =
      a.released.filter fun id => !decide (.scope id ∈ live') :=
    List.filter_congr fun id released => by rw [decide_eq_decide.2 (same id released)]
  unfold keep
  simp only [kept, gone]

theorem realm_disposeAll (a : Arena) (gone : List ScopeId) :
    (a.disposeAll gone).realm = a.realm := by
  induction gone with
  | nil => rfl
  | cons id gone ih => exact ih

theorem made_disposeAll (a : Arena) (gone : List ScopeId) : (a.disposeAll gone).made = a.made := by
  induction gone with
  | nil => rfl
  | cons id gone ih => exact ih

theorem tidy_keep (tidy : a.Tidy) (live : List Holding) : (a.keep live).Tidy := by
  refine tidy_disposeAll tidy (tidy.released_nodup.filter _) (fun id => ?_) (fun id stays => ?_)
    (tidy.released_nodup.filter _)
  · rw [List.mem_filter, List.mem_filter]
    by_cases stays : .scope id ∈ live <;> simp [stays]
  · have live := (List.mem_filter.1 stays).2
    simp only [List.mem_filter, live, Bool.not_true, Bool.false_eq_true, and_false,
      not_false_eq_true]

/-- Keeping what is held clears nothing that is held. -/
theorem sweeps_keep (tidy : a.Tidy) {live : List Holding}
    (keeps : ∀ id ∈ a.released, Held a h held (.scope id) → .scope id ∈ live) :
    Sweeps h held a (a.keep live) := by
  refine ⟨realm_disposeAll .., made_disposeAll .., fun id => ?_⟩
  rw [record_keep tidy]
  split
  · rename_i gone
    exact .inr ⟨fun holds => gone.2 (keeps id gone.1 holds), rfl⟩
  · exact .inl rfl

end Arena

end Scriptlet
