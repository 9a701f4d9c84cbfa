import Mathlib.Data.List.Perm.Subperm
import Scriptlet.Proofs.Scope.Record

/-!
The way from a record up to the top of its tree.

The walks of an arena count their steps down from the size of the arena. A way up that stays among
allocated records never comes by a record twice, so the count does not run out: what a walk finds is
what the records on the way say.
-/

namespace Scriptlet.Arena

variable {a b : Arena} {id x : ScopeId} {path : List ScopeId}

/-- The records from one of them up to the top, which has no parent. -/
inductive Climbs (a : Arena) : ScopeId → List ScopeId → Prop where
  | top {id : ScopeId} : (a.record id).parent = none → Climbs a id [id]
  | up {id parent : ScopeId} {path : List ScopeId} :
      (a.record id).parent = some parent → Climbs a parent path → Climbs a id (id :: path)

namespace Climbs

theorem mem_self (climbs : Climbs a id path) : id ∈ path := by
  cases climbs <;> simp

theorem unique {path' : List ScopeId} (climbs : Climbs a id path) (climbs' : Climbs a id path') :
    path = path' := by
  induction climbs generalizing path' with
  | top none =>
    cases climbs' with
    | top => rfl
    | up some => simp [none] at some
  | up here _ ih =>
    cases climbs' with
    | top none => simp [none] at here
    | up there above =>
      rw [here] at there
      cases there
      rw [ih above]

/-- From any record on the way the rest of the way goes up. -/
theorem from_mem (climbs : Climbs a id path) (on : x ∈ path) :
    ∃ above, Climbs a x above ∧ above.length ≤ path.length ∧
    (x ≠ id → above.length < path.length) := by
  induction climbs with
  | top none =>
    rw [List.mem_singleton] at on
    subst on
    exact ⟨_, .top none, Nat.le_refl _, fun apart => absurd rfl apart⟩
  | @up id parent path here above ih =>
    rcases List.mem_cons.1 on with same | on
    · subst same
      exact ⟨_, .up here above, Nat.le_refl _, fun apart => absurd rfl apart⟩
    · obtain ⟨rest, climbs, short, _⟩ := ih on
      simp only [List.length_cons]
      exact ⟨rest, climbs, by omega, fun _ => by omega⟩

theorem nodup (climbs : Climbs a id path) : path.Nodup := by
  induction climbs with
  | top => simp
  | @up id parent path here above ih =>
    refine List.nodup_cons.2 ⟨fun again => ?_, ih⟩
    -- a way that came back to its start would be shorter than itself
    obtain ⟨rest, climbs, short, _⟩ := above.from_mem again
    have same := climbs.unique (.up here above)
    rw [same, List.length_cons] at short
    omega

theorem length_le (climbs : Climbs a id path)
    (allocated : ∀ x ∈ path, (a.record x).phase ≠ .free) : path.length ≤ a.records.size := by
  have inside : path.map ScopeId.index ⊆ List.range a.records.size := by
    intro n on
    obtain ⟨x, member, rfl⟩ := List.mem_map.1 on
    exact List.mem_range.2 (lt_size_of_allocated (allocated x member))
  have distinct : (path.map ScopeId.index).Nodup :=
    List.Pairwise.map _ (fun _ _ apart equal => apart (ScopeId.index_inj.1 equal)) climbs.nodup
  simpa using (distinct.subperm inside).length_le

/-- Arenas with the same parents have the same ways up. -/
theorem congr (climbs : Climbs a id path)
    (parents : ∀ x ∈ path, (b.record x).parent = (a.record x).parent) : Climbs b id path := by
  induction climbs with
  | top none => exact .top (by rw [parents _ (by simp), none])
  | up here _ ih =>
    exact .up (by rw [parents _ (by simp), here])
      (ih fun x on => parents x (List.mem_cons_of_mem _ on))

end Climbs

/-! ### Walks -/

/-- The binding that a record itself has for a name. -/
def own (a : Arena) (name : String) (id : ScopeId) : Option (ScopeId × Binding) :=
  ((a.record id).bindings.get? name).map (id, ·)

theorem lookupFrom_eq (climbs : Climbs a id path) (name : String) {fuel : Nat}
    (enough : path.length ≤ fuel) : a.lookupFrom name fuel id = path.findSome? (a.own name) := by
  induction climbs generalizing fuel with
  | @top id none =>
    obtain ⟨fuel, rfl⟩ : ∃ n, fuel = n + 1 := ⟨fuel - 1, by simp at enough; omega⟩
    cases found : (a.record id).bindings.get? name <;> simp [lookupFrom, own, found, none]
  | @up id parent path here above ih =>
    simp only [List.length_cons] at enough
    obtain ⟨fuel, rfl⟩ : ∃ n, fuel = n + 1 := ⟨fuel - 1, by omega⟩
    cases found : (a.record id).bindings.get? name with
    | some binding => simp [lookupFrom, own, found]
    | none => simp [lookupFrom, own, found, here, ih (Nat.le_of_succ_le_succ enough)]

/-- The nearest binding of a name is that of the first record on the way up that has one. -/
theorem lookup?_eq (climbs : Climbs a id path)
    (allocated : ∀ x ∈ path, (a.record x).phase ≠ .free) (name : String) :
    a.lookup? id name = path.findSome? (a.own name) :=
  lookupFrom_eq climbs name (climbs.length_le allocated)

/-- Whether `var` declarations from below stop at a record. -/
def stopsVar (a : Arena) (id : ScopeId) : Bool :=
  (a.record id).kind = .function || (a.record id).parent.isNone

theorem hoistFrom_eq (climbs : Climbs a id path) {fuel : Nat} (enough : path.length ≤ fuel) :
    path.find? a.stopsVar = some (a.hoistFrom fuel id) := by
  induction climbs generalizing fuel with
  | @top id none =>
    obtain ⟨fuel, rfl⟩ : ∃ n, fuel = n + 1 := ⟨fuel - 1, by simp at enough; omega⟩
    cases kind : (a.record id).kind <;> simp [hoistFrom, stopsVar, none, kind]
  | @up id parent path here above ih =>
    simp only [List.length_cons] at enough
    obtain ⟨fuel, rfl⟩ : ∃ n, fuel = n + 1 := ⟨fuel - 1, by omega⟩
    cases kind : (a.record id).kind with
    | function => simp [hoistFrom, stopsVar, kind]
    | block => simp [hoistFrom, stopsVar, kind, here, ih (Nat.le_of_succ_le_succ enough)]

/-- `var` declarations belong to the first record on the way up that stops them. -/
theorem hoistTarget_eq (climbs : Climbs a id path)
    (allocated : ∀ x ∈ path, (a.record x).phase ≠ .free) :
    path.find? a.stopsVar = some (a.hoistTarget id) :=
  hoistFrom_eq climbs (climbs.length_le allocated)

theorem mem_of_lookup? (climbs : Climbs a id path)
    (allocated : ∀ x ∈ path, (a.record x).phase ≠ .free) {name : String} {owner : ScopeId}
    {binding : Binding} (found : a.lookup? id name = some (owner, binding)) :
    owner ∈ path ∧ (a.record owner).bindings.get? name = some binding := by
  rw [lookup?_eq climbs allocated] at found
  obtain ⟨x, on, own⟩ := List.exists_of_findSome?_eq_some found
  simp only [Arena.own, Option.map_eq_some_iff, Prod.mk.injEq] at own
  obtain ⟨binding', there, rfl, rfl⟩ := own
  exact ⟨on, there⟩

theorem hoistTarget_mem (climbs : Climbs a id path)
    (allocated : ∀ x ∈ path, (a.record x).phase ≠ .free) : a.hoistTarget id ∈ path :=
  List.mem_of_find?_eq_some (hoistTarget_eq climbs allocated)

end Scriptlet.Arena
