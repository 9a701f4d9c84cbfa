import Scriptlet.Proofs.Scope.Account
import Scriptlet.Proofs.Scope.Edit
import Scriptlet.Proofs.Scope.Hoisting

/-!
Where the setting of a binding is seen.

Every operation on bindings sets one binding of one record, or nothing. A reader sees it exactly if
its way up comes to that record before any other one that binds the name. Main statement:
`Desk.bindings_lawful`.
-/

namespace Scriptlet

namespace Arena

variable {a b : Arena} {id owner target e₁ e₂ : ScopeId} {x y name : String} {v : Value}
  {set : Binding}

/-- On the way up from a record, `owner` is the first that binds a name. -/
inductive Nearest (a : Arena) (name : String) : ScopeId → ScopeId → Prop where
  | here {id : ScopeId} : a.binds id name = true → Nearest a name id id
  | above {id parent owner : ScopeId} :
      a.binds id name = false → (a.record id).parent = some parent →
      Nearest a name parent owner → Nearest a name id owner

/-- The way up from a record comes to `target` before any other record that binds a name. -/
inductive Reaches (a : Arena) (name : String) (target : ScopeId) : ScopeId → Prop where
  | here : Reaches a name target target
  | above {id parent : ScopeId} : a.binds id name = false → (a.record id).parent = some parent →
      Reaches a name target parent → Reaches a name target id

/-- From one arena to the next, a name is read as `v` where the change is seen, and as before
elsewhere. -/
def ReadsAs (a b : Arena) (id : ScopeId) (name : String) (v : Value) (seen : Prop) : Prop :=
  (seen → b.read id name = .ok v) ∧ (¬seen → b.read id name = a.read id name)

/-! ### The nearest binding -/

theorem nearest_iff_reaches :
    a.Nearest name id owner ↔ a.Reaches name owner id ∧ a.binds owner name = true := by
  constructor
  · intro nearest
    induction nearest with
    | here binds => exact ⟨.here, binds⟩
    | above unbound up _ ih => exact ⟨.above unbound up ih.1, ih.2⟩
  · rintro ⟨reaches, binds⟩
    induction reaches with
    | here => exact .here binds
    | above unbound up _ ih => exact .above unbound up ih

theorem nearest_iff_own {path : List ScopeId} (climbs : a.Climbs id path) :
    a.Nearest name id owner ↔ ∃ set, path.findSome? (a.own name) = some (owner, set) := by
  induction climbs with
  | @top id none =>
    constructor
    · rintro (⟨binds⟩ | ⟨_, up, _⟩)
      · obtain ⟨set, there⟩ := Option.isSome_iff_exists.1 binds
        exact ⟨set, by simp [own, there]⟩
      · simp [none] at up
    · rintro ⟨set, found⟩
      obtain ⟨z, on, first⟩ := List.exists_of_findSome?_eq_some found
      obtain rfl := List.mem_singleton.1 on
      obtain ⟨rfl, there⟩ := own_eq_some_iff.1 first
      exact .here (by simp [binds, Table.contains, there])
  | @up id parent path here above ih =>
    cases own : a.own name id with
    | some first =>
      obtain ⟨z, set⟩ := first
      obtain ⟨rfl, there⟩ := own_eq_some_iff.1 own
      have bound : a.binds id name = true := by simp [binds, Table.contains, there]
      rw [List.findSome?_cons, own]
      constructor
      · rintro (_ | ⟨unbound, _, _⟩)
        · exact ⟨set, rfl⟩
        · rw [bound] at unbound
          cases unbound
      · rintro ⟨set', same⟩
        cases same
        exact .here bound
    | none =>
      have unbound := own_eq_none_iff.1 own
      rw [List.findSome?_cons, own, ← ih]
      constructor
      · rintro (⟨bound⟩ | ⟨_, up, nearest⟩)
        · rw [unbound] at bound
          cases bound
        · rw [here] at up
          cases up
          exact nearest
      · exact .above unbound here

/-- A lookup finds the nearest binding. -/
theorem Stands.nearest_iff (stands : a.Stands id) :
    a.Nearest name id owner ↔ ∃ set, a.lookup? id name = some (owner, set) := by
  obtain ⟨path, climbs, allocated⟩ := stands
  rw [nearest_iff_own climbs, lookup?_eq climbs allocated]

theorem Stands.lookup?_eq_some (stands : a.Stands id) (nearest : a.Nearest name id owner)
    (there : (a.record owner).bindings.get? name = some set) :
    a.lookup? id name = some (owner, set) := by
  obtain ⟨set', found⟩ := stands.nearest_iff.1 nearest
  have own := lookup?_own found
  rw [there] at own
  cases own
  exact found

theorem Stands.lookup?_eq_none (stands : a.Stands id)
    (unbound : ∀ owner, ¬a.Nearest name id owner) :
    a.lookup? id name = none := by
  cases found : a.lookup? id name with
  | none => rfl
  | some first => exact absurd (stands.nearest_iff.2 ⟨first.2, found⟩) (unbound first.1)

/-- What is read depends on the nearest binding only. -/
theorem read_congr (stands : a.Stands id) (stands' : b.Stands id)
    (nearest : ∀ owner, b.Nearest name id owner ↔ a.Nearest name id owner)
    (same : ∀ owner, a.Nearest name id owner →
      (b.record owner).bindings.get? name = (a.record owner).bindings.get? name) :
    b.read id name = a.read id name := by
  suffices lookup : b.lookup? id name = a.lookup? id name by rw [read, read, lookup]
  cases found : a.lookup? id name with
  | none =>
    refine stands'.lookup?_eq_none fun owner near => ?_
    obtain ⟨set, there⟩ := stands.nearest_iff.1 ((nearest owner).1 near)
    rw [found] at there
    cases there
  | some first =>
    obtain ⟨owner, set⟩ := first
    have near := stands.nearest_iff.2 ⟨set, found⟩
    exact stands'.lookup?_eq_some ((nearest owner).2 near)
      ((same owner near).trans (lookup?_own found))

/-! ### Setting one binding -/

theorem get?_bind (inside : target.index < a.records.size) (apart : ¬(y = x ∧ id = target)) :
    ((a.bind target x set).record id).bindings.get? y = (a.record id).bindings.get? y := by
  by_cases same : id = target
  · subst same
    rw [bindings_bind_self inside,
      Table.get?_insert_of_ne _ fun renamed => apart ⟨renamed.symm, rfl⟩]
  · rw [bind, record_modifyRecord_of_ne same]

theorem binds_bind (inside : target.index < a.records.size) (apart : ¬(y = x ∧ id = target)) :
    (a.bind target x set).binds id y = a.binds id y := by
  rw [binds, binds, Table.contains, Table.contains, get?_bind inside apart]

theorem binds_bind_self (inside : target.index < a.records.size) :
    (a.bind target x set).binds target x = true := by
  rw [binds, Table.contains, bindings_bind_self inside, Table.get?_insert_self]
  rfl

theorem nearest_bind_of_reaches (inside : target.index < a.records.size)
    (reaches : a.Reaches x target id) :
    (a.bind target x set).Nearest x id target := by
  induction reaches with
  | here => exact .here (binds_bind_self inside)
  | @above id parent unbound up _ ih =>
    by_cases same : id = target
    · subst same
      exact .here (binds_bind_self inside)
    · refine .above ?_ (by rwa [parent_bind]) ih
      rwa [binds_bind inside fun both => same both.2]

/-- Where the record is not reached for the name, the nearest binding stays. -/
theorem nearest_bind_of_unseen (inside : target.index < a.records.size)
    (unseen : ¬(y = x ∧ a.Reaches x target id)) :
    (a.bind target x set).Nearest y id owner ↔ a.Nearest y id owner := by
  have apart {z : ScopeId} (unseen : ¬(y = x ∧ a.Reaches x target z)) : ¬(y = x ∧ z = target) := by
    rintro ⟨rfl, rfl⟩
    exact unseen ⟨rfl, .here⟩
  have onward {z parent : ScopeId} (unbound : a.binds z y = false)
    (up : (a.record z).parent = some parent)
      (unseen : ¬(y = x ∧ a.Reaches x target z)) : ¬(y = x ∧ a.Reaches x target parent) := by
    rintro ⟨rfl, reaches⟩
    exact unseen ⟨rfl, .above unbound up reaches⟩
  constructor
  · intro nearest
    induction nearest with
    | here bound => exact .here (by rwa [binds_bind inside (apart unseen)] at bound)
    | above unbound up _ ih =>
      rw [binds_bind inside (apart unseen)] at unbound
      rw [parent_bind] at up
      exact .above unbound up (ih (onward unbound up unseen))
  · intro nearest
    induction nearest with
    | here bound => exact .here (by rwa [binds_bind inside (apart unseen)])
    | above unbound up _ ih =>
      refine .above ?_ (by rwa [parent_bind]) (ih (onward unbound up unseen))
      rwa [binds_bind inside (apart unseen)]

/-- One binding that is set is seen from where its record is reached for the name. -/
theorem Stands.readsAs_bind (stands : a.Stands id) (allocated : (a.record target).phase ≠ .free)
    (x y : String) (v : Value) (kind : DeclKind) :
    a.ReadsAs (a.bind target x ⟨v, kind⟩) id y v (y = x ∧ a.Reaches x target id) := by
  have inside := lt_size_of_allocated allocated
  have stands' := stands.bind target x ⟨v, kind⟩
  constructor
  · rintro ⟨rfl, reaches⟩
    have found := stands'.lookup?_eq_some (nearest_bind_of_reaches inside reaches)
      (by rw [bindings_bind_self inside, Table.get?_insert_self])
    rw [read, found]
  · intro unseen
    refine read_congr stands stands' (fun owner => nearest_bind_of_unseen inside unseen)
      fun owner near => ?_
    refine get?_bind inside ?_
    rintro ⟨rfl, rfl⟩
    exact unseen ⟨rfl, (nearest_iff_reaches.1 near).1⟩

/-! ### Operations -/

/-- What holds for a reader when a binding is changed through another scope. -/
structure BindingLaws (a : Arena) (e₁ e₂ : ScopeId) (x y : String) (v : Value) : Prop where
  /-- An assignment is seen where the nearest binding is the same. -/
  write_reads : ∀ b, write e₁ x v a = .ok () b →
    a.ReadsAs b e₂ y v (y = x ∧ ∃ owner, a.Nearest x e₁ owner ∧ a.Nearest y e₂ owner)
  write_refused : ∀ c b, write e₁ x v a = .error c b ↔ b = a ∧
    ((c = .unbound x ∧ ∀ owner, ¬a.Nearest x e₁ owner) ∨
      (c = .constantAssigned x ∧ ∃ owner set, a.Nearest x e₁ owner ∧
        (a.record owner).bindings.get? x = some set ∧ set.kind = .const))
  /-- A declaration is seen where the declaring record is reached before another one with the
  name. -/
  declare_reads : ∀ kind ≠ .var, ∀ b, declare kind e₁ x v a = .ok () b →
    a.ReadsAs b e₂ y v (y = x ∧ a.Reaches x e₁ e₂)
  declare_refused : ∀ kind ≠ .var, ∀ c b, declare kind e₁ x v a = .error c b ↔
    b = a ∧ c = .redeclared x ∧ a.binds e₁ x = true
  /-- `var` declarations go to the first record on the way up that is no block or has no parent. -/
  hoists : ∃ path, a.Climbs e₁ path ∧ path.find? a.stopsVar = some (a.hoistTarget e₁)
  var_reads : ∀ b, declareVar e₁ x v a = .ok true b →
    a.ReadsAs b e₂ y v (y = x ∧ a.Reaches x (a.hoistTarget e₁) e₂)
  var_keeps : ∀ b, declareVar e₁ x v a = .ok false b ↔ b = a ∧ a.binds (a.hoistTarget e₁) x = true
  var_passes : ∀ c b, declareVar e₁ x v a ≠ .error c b
  function_reads : ∀ b, declareFunction e₁ x v a = .ok () b →
    a.ReadsAs b e₂ y v (y = x ∧ a.Reaches x e₁ e₂)
  /-- A function takes the place of a variable, but not of another binding. -/
  function_refused : ∀ c b, declareFunction e₁ x v a = .error c b ↔ b = a ∧ c = .redeclared x ∧
    ∃ set, (a.record e₁).bindings.get? x = some set ∧ set.kind ≠ .var

theorem Stands.write_reads (stands : a.Stands e₁) (reader : a.Stands e₂)
    (done : write e₁ x v a = .ok () b) :
    a.ReadsAs b e₂ y v (y = x ∧ ∃ owner, a.Nearest x e₁ owner ∧ a.Nearest y e₂ owner) := by
  simp only [write] at done
  split at done
  · cases done
  · rename_i owner set found
    split at done
    · cases done
    · cases done
      have near := stands.nearest_iff.2 ⟨set, found⟩
      have allocated : (a.record owner).phase ≠ .free := by
        obtain ⟨path, climbs, allocated⟩ := stands
        exact allocated owner (mem_of_lookup? climbs allocated found).1
      have reads := reader.readsAs_bind allocated x y v set.kind
      -- the assignment is seen where the record of the binding is the nearest for the reader as
      -- well
      have seen : (y = x ∧ ∃ owner, a.Nearest x e₁ owner ∧ a.Nearest y e₂ owner) ↔
          (y = x ∧ a.Reaches x owner e₂) := by
        constructor
        · rintro ⟨rfl, other, near', shared⟩
          obtain ⟨set', found'⟩ := stands.nearest_iff.1 near'
          rw [found] at found'
          cases found'
          exact ⟨rfl, (nearest_iff_reaches.1 shared).1⟩
        · rintro ⟨rfl, reaches⟩
          exact ⟨rfl, owner, near, nearest_iff_reaches.2 ⟨reaches, (nearest_iff_reaches.1 near).2⟩⟩
      rw [ReadsAs, seen]
      exact reads

theorem Stands.write_refused (stands : a.Stands e₁) {c : Cause} :
    write e₁ x v a = .error c b ↔ b = a ∧
      ((c = .unbound x ∧ ∀ owner, ¬a.Nearest x e₁ owner) ∨
        (c = .constantAssigned x ∧ ∃ owner set, a.Nearest x e₁ owner ∧
          (a.record owner).bindings.get? x = some set ∧ set.kind = .const)) := by
  simp only [write]
  constructor
  · intro failed
    split at failed
    · rename_i none
      cases failed
      refine ⟨rfl, .inl ⟨rfl, fun owner near => ?_⟩⟩
      obtain ⟨set, found⟩ := stands.nearest_iff.1 near
      rw [none] at found
      cases found
    · rename_i owner set found
      split at failed
      · rename_i constant
        cases failed
        exact ⟨rfl,
          .inr ⟨rfl, owner, set, stands.nearest_iff.2 ⟨set, found⟩, lookup?_own found, constant⟩⟩
      · cases failed
  · rintro ⟨rfl, ⟨rfl, unbound⟩ | ⟨rfl, owner, set, near, there, constant⟩⟩
    · rw [stands.lookup?_eq_none unbound]
    · rw [stands.lookup?_eq_some near there]
      exact if_pos constant

theorem declare_eq {kind : DeclKind} (lexical : kind ≠ .var) :
    declare kind id name v = declareOwn kind id name v := by
  cases kind with
  | var => exact absurd rfl lexical
  | let_ | const => rfl

theorem Stands.declare_reads (stands : a.Stands e₁) (reader : a.Stands e₂) {kind : DeclKind}
    (lexical : kind ≠ .var)
    (done : declare kind e₁ x v a = .ok () b) : a.ReadsAs b e₂ y v (y = x ∧ a.Reaches x e₁ e₂) := by
  rw [declare_eq lexical, declareOwn] at done
  split at done
  · cases done
  · cases done
    exact reader.readsAs_bind stands.allocated x y v kind

theorem declare_refused {kind : DeclKind} (lexical : kind ≠ .var) {c : Cause} :
    declare kind e₁ x v a = .error c b ↔ b = a ∧ c = .redeclared x ∧ a.binds e₁ x = true := by
  rw [declare_eq lexical, declareOwn]
  split
  next bound =>
    simp only [EStateM.Result.error.injEq, bound, and_true]
    rw [eq_comm, eq_comm (b := a), and_comm]
  next unbound => simp [unbound]

theorem Stands.hoists (stands : a.Stands e₁) :
    ∃ path, a.Climbs e₁ path ∧ path.find? a.stopsVar = some (a.hoistTarget e₁) := by
  obtain ⟨path, climbs, allocated⟩ := stands
  exact ⟨path, climbs, hoistTarget_eq climbs allocated⟩

theorem Stands.var_reads (stands : a.Stands e₁) (reader : a.Stands e₂)
    (done : declareVar e₁ x v a = .ok true b) :
    a.ReadsAs b e₂ y v (y = x ∧ a.Reaches x (a.hoistTarget e₁) e₂) := by
  simp only [declareVar] at done
  split at done
  · cases done
  · cases done
    obtain ⟨path, climbs, allocated⟩ := stands
    exact reader.readsAs_bind (allocated _ (hoistTarget_mem climbs allocated)) x y v .var

theorem var_keeps :
    declareVar e₁ x v a = .ok false b ↔ b = a ∧ a.binds (a.hoistTarget e₁) x = true := by
  simp only [declareVar]
  split
  next bound => simp [bound, eq_comm]
  next unbound => simp [unbound]

theorem var_passes (c : Cause) : declareVar e₁ x v a ≠ .error c b := by
  simp only [declareVar]
  split <;> simp

theorem Stands.function_reads (stands : a.Stands e₁) (reader : a.Stands e₂)
    (done : declareFunction e₁ x v a = .ok () b) :
    a.ReadsAs b e₂ y v (y = x ∧ a.Reaches x e₁ e₂) := by
  simp only [declareFunction] at done
  split at done
  · cases done
  · cases done
  · cases done
    exact reader.readsAs_bind stands.allocated x y v .var

theorem function_refused {c : Cause} :
    declareFunction e₁ x v a = .error c b ↔ b = a ∧ c = .redeclared x ∧
    ∃ set, (a.record e₁).bindings.get? x = some set ∧ set.kind ≠ .var := by
  simp only [declareFunction]
  cases found : (a.record e₁).bindings.get? x with
  | none => simp
  | some set =>
    obtain ⟨w, kind⟩ := set
    cases kind <;> simp [eq_comm, and_comm]

/-- The laws hold between any two scopes whose ways up are allocated. -/
theorem Stands.bindingLaws (stands : a.Stands e₁) (reader : a.Stands e₂) (x y : String)
    (v : Value) :
    a.BindingLaws e₁ e₂ x y v where
  write_reads _ := stands.write_reads reader
  write_refused _ _ := stands.write_refused
  declare_reads _ lexical _ := stands.declare_reads reader lexical
  declare_refused _ lexical _ _ := declare_refused lexical
  hoists := stands.hoists
  var_reads _ := stands.var_reads reader
  var_keeps _ := var_keeps
  var_passes c _ := var_passes c
  function_reads _ := stands.function_reads reader
  function_refused _ _ := function_refused

end Arena

/-! ### Main statement -/

namespace Desk

/-- Whatever was asked for before, a change of a binding through a held scope is seen through
another one as the nearest bindings say: an assignment where the name has the same nearest binding,
and a declaration where the declaring record is reached before another one that binds the name.
Everything else is read as before. A change that is refused changes nothing; an assignment is
refused where nothing binds the name or the nearest binding is constant, and a declaration where the
declaring record binds the name already. -/
theorem bindings_lawful {requests : List Request} (granted : Granted {} requests) {e₁ e₂ : ScopeId}
    (held₁ : (run .reclaiming {} requests).2.Holds (.scope e₁))
    (held₂ : (run .reclaiming {} requests).2.Holds (.scope e₂)) (x y : String) (v : Value) :
    (run .reclaiming {} requests).2.arena.BindingLaws e₁ e₂ x y v := by
  have orderly := orderly_run orderly_new granted
  have stands {e : ScopeId} (held : (run .reclaiming {} requests).2.Holds (.scope e)) :
      (run .reclaiming {} requests).2.arena.Stands e := by
    obtain ⟨path, climbs, -, -, allocated, -⟩ := orderly.comesToRoot held
    exact ⟨path, climbs, allocated⟩
  exact (stands held₁).bindingLaws (stands held₂) x y v

/-- Two blocks under a function that binds a name. -/
def siblingRequests : List Request :=
  [.push .function 0, .edit (.declare .let_) 1 "x" .null, .push .block 1, .push .block 1]

/-- What one of the blocks assigns, the other one reads. -/
theorem bindings_lawful_siblings :
    Granted {} siblingRequests ∧
      let d := (run .reclaiming {} siblingRequests).2
      d.Holds (.scope (d.at_ 2)) ∧ d.Holds (.scope (d.at_ 3)) ∧
        ∃ b, Arena.write (d.at_ 2) "x" (.boolean true) d.arena = .ok () b ∧
          b.read (d.at_ 3) "x" = .ok (.boolean true) := by
  have granted : Granted {} siblingRequests := by
    refine ⟨⟨by decide, .root (.running rfl)⟩, ?_, ⟨by decide, .root (.running rfl)⟩,
      ⟨by decide, .root (.running rfl)⟩, trivial⟩
    intro x refers
    cases refers
  have held₁ : (run .reclaiming {} siblingRequests).2.Holds
      (.scope ((run .reclaiming {} siblingRequests).2.at_ 2)) := .root (.running rfl)
  have held₂ : (run .reclaiming {} siblingRequests).2.Holds
      (.scope ((run .reclaiming {} siblingRequests).2.at_ 3)) := .root (.running rfl)
  have laws := bindings_lawful granted held₁ held₂ "x" "x" (.boolean true)
  refine ⟨granted, held₁, held₂, _, rfl, (laws.write_reads _ rfl).1 ⟨rfl, ⟨1⟩, ?_, ?_⟩⟩
  · exact .above rfl rfl (.here rfl)
  · exact .above rfl rfl (.here rfl)

end Desk

end Scriptlet
