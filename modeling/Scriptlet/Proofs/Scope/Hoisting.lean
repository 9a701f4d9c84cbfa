import Scriptlet.Eval.Pattern
import Scriptlet.Proofs.Scope.Standing

/-!
What a `var` declaration with a value sets.

Main statement: it sets the variable of the scope that `var` declarations belong to, unless that
scope binds the name already and a block below it binds the name as well; then the nearest such
block has its binding set instead. Nothing else changes.
-/

namespace Scriptlet

namespace Arena

variable {a b : Arena} {id owner target : ScopeId} {path : List ScopeId} {name : String} {v : Value}

/-- On the way up from a record, `owner` is the first that binds a name, and the scope that `var`
declarations belong to has not been reached. -/
inductive ShadowedBy (a : Arena) (name : String) : ScopeId → ScopeId → Prop where
  | here {id : ScopeId} : a.stopsVar id = false → a.binds id name = true → ShadowedBy a name id id
  | above {id parent owner : ScopeId} : a.stopsVar id = false → a.binds id name = false →
      (a.record id).parent = some parent → ShadowedBy a name parent owner →
        ShadowedBy a name id owner

/-- One binding of a name is set to a value, and no other binding differs. -/
structure Sets (a b : Arena) (owner : ScopeId) (name : String) (v : Value) : Prop where
  value : ∃ kind, (b.record owner).bindings.get? name = some ⟨v, kind⟩
  others : ∀ x other, x ≠ owner ∨ other ≠ name →
    (b.record x).bindings.get? other = (a.record x).bindings.get? other

theorem sets_bind (allocated : (a.record owner).phase ≠ .free) (name : String) (v : Value)
    (kind : DeclKind) : a.Sets (a.bind owner name ⟨v, kind⟩) owner name v := by
  have inside := lt_size_of_allocated allocated
  refine ⟨⟨kind, by rw [bindings_bind_self inside, Table.get?_insert_self]⟩,
    fun x other apart => ?_⟩
  by_cases same : x = owner
  · subst same
    have renamed : other ≠ name := apart.resolve_left fun different => different rfl
    rw [bindings_bind_self inside, Table.get?_insert_of_ne _ (Ne.symm renamed)]
  · rw [bind, record_modifyRecord_of_ne same]

theorem own_eq_some_iff {binding : Binding} :
    a.own name id = some (owner, binding) ↔
      id = owner ∧ (a.record id).bindings.get? name = some binding := by
  simp only [own, Option.map_eq_some_iff, Prod.mk.injEq]
  constructor
  · rintro ⟨binding', there, same, rfl⟩
    exact ⟨same, there⟩
  · rintro ⟨same, there⟩
    exact ⟨binding, there, same, rfl⟩

theorem own_eq_none_iff : a.own name id = none ↔ a.binds id name = false := by
  simp [own, binds, Table.contains]

theorem ShadowedBy.stopsVar (shadowed : a.ShadowedBy name id owner) : a.stopsVar owner = false := by
  induction shadowed with
  | here passes => exact passes
  | above _ _ _ _ ih => exact ih

theorem not_shadowedBy_of_stopsVar (stops : a.stopsVar id = true) :
    ¬a.ShadowedBy name id owner := by
  intro shadowed
  cases shadowed with
  | here passes => rw [stops] at passes; cases passes
  | above passes => rw [stops] at passes; cases passes

theorem ShadowedBy.unique {other : ScopeId} (shadowed : a.ShadowedBy name id owner)
    (again : a.ShadowedBy name id other) : owner = other := by
  induction shadowed with
  | here _ binds =>
    cases again with
    | here => rfl
    | above _ unbound => rw [unbound] at binds; cases binds
  | above _ unbound on _ ih =>
    cases again with
    | here _ binds => rw [unbound] at binds; cases binds
    | above _ _ on' shadowed =>
      rw [on] at on'
      cases on'
      exact ih shadowed

/-- Where the scope for `var` declarations binds a name, the nearest binding of the name is its own
or that of a block below. -/
theorem nearest_cases (climbs : a.Climbs id path) (found : path.find? a.stopsVar = some target)
    (bound : a.binds target name = true) :
    ∃ owner binding, path.findSome? (a.own name) = some (owner, binding) ∧
      ((owner = target ∧ ∀ x, ¬a.ShadowedBy name id x) ∨ a.ShadowedBy name id owner) := by
  induction climbs with
  | @top id none =>
    have stops : a.stopsVar id = true := by simp [Arena.stopsVar, none]
    simp only [List.find?_cons, stops, Option.some.injEq] at found
    subst found
    obtain ⟨binding, there⟩ : ∃ binding, (a.record id).bindings.get? name = some binding :=
      Option.isSome_iff_exists.1 bound
    exact ⟨id, binding, by simp [own, there], .inl ⟨rfl, fun _ => not_shadowedBy_of_stopsVar stops⟩⟩
  | @up id parent path here above ih =>
    cases own : a.own name id with
    | some nearest =>
      obtain ⟨owner, binding⟩ := nearest
      obtain ⟨rfl, there⟩ := own_eq_some_iff.1 own
      refine ⟨id, binding, by simp [own], ?_⟩
      cases stops : a.stopsVar id with
      | true =>
        simp only [List.find?_cons, stops, Option.some.injEq] at found
        exact .inl ⟨found, fun _ => not_shadowedBy_of_stopsVar stops⟩
      | false => exact .inr (.here stops (by simp [binds, Table.contains, there]))
    | none =>
      have unbound := own_eq_none_iff.1 own
      cases stops : a.stopsVar id with
      | true =>
        simp only [List.find?_cons, stops, Option.some.injEq] at found
        rw [found, bound] at unbound
        cases unbound
      | false =>
        simp only [List.find?_cons, stops] at found
        obtain ⟨owner, binding, nearest, cases⟩ := ih found
        refine ⟨owner, binding, by simp [own, nearest], ?_⟩
        rcases cases with ⟨same, bare⟩ | shadowed
        · refine .inl ⟨same, fun x shadowed => ?_⟩
          cases shadowed with
          | here _ binds => rw [unbound] at binds; cases binds
          | above _ _ on shadowed =>
            rw [here] at on
            cases on
            exact bare x shadowed
        · exact .inr (.above stops unbound here shadowed)

theorem stopsVar_hoistTarget (stands : a.Stands id) : a.stopsVar (a.hoistTarget id) = true := by
  obtain ⟨path, climbs, allocated⟩ := stands
  exact List.find?_some (hoistTarget_eq climbs allocated)

/-- The binding that a `var` declaration with a value sets. -/
theorem initVar_sets (stands : a.Stands id) (done : initVar id name v a = .ok () b) :
    ∃ owner, a.Sets b owner name v ∧
      (owner = a.hoistTarget id ∧
          (a.binds (a.hoistTarget id) name = true → ∀ x, ¬a.ShadowedBy name id x) ∨
        a.binds (a.hoistTarget id) name = true ∧ a.ShadowedBy name id owner) := by
  obtain ⟨path, climbs, allocated⟩ := stands
  have target := hoistTarget_eq climbs allocated
  change EStateM.bind (declareVar id name v) _ a = _ at done
  unfold EStateM.bind declareVar at done
  by_cases bound : a.binds (a.hoistTarget id) name = true
  · -- the name is there already, and the nearest binding of it is written
    simp only [bound, if_true] at done
    obtain ⟨owner, binding, nearest, cases⟩ := nearest_cases climbs target bound
    rw [← lookup?_eq climbs allocated] at nearest
    have written : write id name v a = .ok () b := done
    simp only [write, nearest] at written
    split at written
    · cases written
    · cases written
      have there := allocated owner (mem_of_lookup? climbs allocated nearest).1
      refine ⟨owner, sets_bind there name v binding.kind, ?_⟩
      rcases cases with ⟨same, bare⟩ | shadowed
      · exact .inl ⟨same, fun _ => bare⟩
      · exact .inr ⟨bound, shadowed⟩
  · simp only [bound] at done
    cases done
    have there := allocated _ (hoistTarget_mem climbs allocated)
    exact ⟨_, sets_bind there name v .var, .inl ⟨rfl, fun bound' => absurd bound' bound⟩⟩

end Arena

variable {s t : State} {env : ScopeId} {name : String} {v : Value}

theorem Eval.onScopes_ok {α : Type} {op : Arena.Op α} {x : α}
    (done : Eval.onScopes op s = .ok x t) :
    ∃ scopes, op s.scopes = .ok x scopes ∧ t = { s with scopes := scopes } := by
  obtain ⟨heap, scopes, realm, memory, depth, console⟩ := s
  simp only [Eval.onScopes] at done
  split at done
  · rename_i ran
    cases done
    exact ⟨_, ran, rfl⟩
  · cases done

/-- A `var` declaration with a value that is not refused sets one binding of the name and nothing
else: that of the scope `var` declarations belong to, whether or not the name was there, as long as
no block on the way binds the name or the scope itself does not; and else that of the nearest such
block. -/
theorem var_sets (stands : s.scopes.Stands env)
    (done : Eval.bindName (.declare .var) name v env s = .ok () t) :
    let target := s.scopes.hoistTarget env
    ((s.scopes.binds target name = false ∨ ∀ owner, ¬s.scopes.ShadowedBy name env owner) →
        s.scopes.Sets t.scopes target name v) ∧
      ∀ owner, s.scopes.binds target name = true → s.scopes.ShadowedBy name env owner →
        owner ≠ target ∧ s.scopes.Sets t.scopes owner name v := by
  intro target
  obtain ⟨scopes, ran, rfl⟩ := Eval.onScopes_ok done
  obtain ⟨owner, sets, cases⟩ := Arena.initVar_sets stands ran
  refine ⟨fun free => ?_, fun nearest bound shadowed => ?_⟩
  · rcases cases with ⟨rfl, -⟩ | ⟨bound, shadowed⟩
    · exact sets
    · rcases free with unbound | bare
      · rw [unbound] at bound
        cases bound
      · exact absurd shadowed (bare owner)
  · have apart : nearest ≠ target := by
      rintro rfl
      have stops := Arena.stopsVar_hoistTarget stands
      rw [shadowed.stopsVar] at stops
      cases stops
    refine ⟨apart, ?_⟩
    rcases cases with ⟨-, bare⟩ | ⟨-, found⟩
    · exact absurd shadowed (bare bound nearest)
    · rwa [shadowed.unique found]

/-- A `var` in the root scope and a `let` of the same name in a block. -/
def shadowedScopes : Arena :=
  let block := (Arena.new.push .block Arena.root).2
  (block.bind Arena.root "x" ⟨.boolean true, .var⟩).bind ⟨1⟩ "x" ⟨.null, .let_⟩

/-- The block's `let` takes the value, and the variable keeps its own. -/
theorem var_sets_shadowed :
    ∃ t, Eval.bindName (.declare .var) "x" (.boolean false) ⟨1⟩
        { heap := {}, scopes := shadowedScopes, realm := default } = .ok () t ∧
      shadowedScopes.Stands ⟨1⟩ ∧ shadowedScopes.hoistTarget ⟨1⟩ = Arena.root ∧
      shadowedScopes.binds Arena.root "x" = true ∧ shadowedScopes.ShadowedBy "x" ⟨1⟩ ⟨1⟩ ∧
      (⟨1⟩ : ScopeId) ≠ Arena.root ∧
      shadowedScopes.Sets t.scopes ⟨1⟩ "x" (.boolean false) := by
  have stands : shadowedScopes.Stands ⟨1⟩ :=
    ⟨[⟨1⟩, Arena.root], .up rfl (.top rfl), by decide⟩
  have bound : shadowedScopes.binds Arena.root "x" = true := rfl
  have shadowed : shadowedScopes.ShadowedBy "x" ⟨1⟩ ⟨1⟩ := .here rfl rfl
  obtain ⟨apart, sets⟩ :=
    (var_sets (s := { heap := {}, scopes := shadowedScopes, realm := default })
    stands (v := .boolean false) rfl).2 ⟨1⟩ bound shadowed
  exact ⟨_, rfl, stands, rfl, bound, shadowed, apart, sets⟩

end Scriptlet
