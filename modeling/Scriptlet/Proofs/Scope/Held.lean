import Scriptlet.Proofs.Scope.Living

/-!
What is held.

A scope or container is held when a running scope, a handle or a value outside of the arena leads to
it. Main statements: nothing that is held was dropped, and in a safe arena the records of held
scopes are allocated, have handles that are there, and lead up to the top.
-/

namespace Scriptlet

/-- What is held directly: by a run, by a handle, or as a value outside of the arena. -/
inductive IsRoot (a : Arena) (held : Holders) : Holding → Prop where
  | running {id : ScopeId} : (a.record id).phase = .running → IsRoot a held (.scope id)
  | handle {id : ScopeId} : id ∈ held.scopes → IsRoot a held (.scope id)
  | value {v : Value} {x : Holding} :
      v ∈ held.values → Holding.ofValue? v = some x → IsRoot a held x

/-- One step from a scope or container to what it refers to. Handles of other arenas lead
nowhere. -/
inductive Refers (a : Arena) (h : Heap) : Holding → Holding → Prop where
  | parent {id parent : ScopeId} :
      (a.record id).parent = some parent → Refers a h (.scope id) (.scope parent)
  | binding {id : ScopeId} {b : Binding} {x : Holding} :
      b ∈ (a.record id).bindings.values → Holding.ofValue? b.value = some x →
      Refers a h (.scope id) x
  | element {r : ArrayRef} {v : Value} {x : Holding} :
      v ∈ h.elements r → Holding.ofValue? v = some x → Refers a h (.array r) x
  | property {r : ObjectRef} {v : Value} {x : Holding} :
      v ∈ (h.object r).props.values → Holding.ofValue? v = some x → Refers a h (.object r) x
  | prototype {r p : ObjectRef} :
      (h.object r).prototype = some p → Refers a h (.object r) (.object p)
  | own {r : FunctionRef} {f : FunctionObject} {v : Value} {x : Holding} :
      h.function? r = some f → v ∈ f.props.values → Holding.ofValue? v = some x →
      Refers a h (.function r) x
  | closure {r : FunctionRef} {f : FunctionObject} {η : Handle} :
      h.function? r = some f → Heap.handleOf? f = some η → η.realm? = some a.realm →
      Refers a h (.function r) (.scope η.scope)
  /-- The values that a native function keeps for its calls. -/
  | kept {r : FunctionRef} {f : FunctionObject} {v : Value} {x : Holding} :
      h.function? r = some f → v ∈ Heap.keptBy f → Holding.ofValue? v = some x →
      Refers a h (.function r) x

/-- What something outside of the arena or a running scope leads to. -/
inductive Held (a : Arena) (h : Heap) (held : Holders) : Holding → Prop where
  | root {x : Holding} : IsRoot a held x → Held a h held x
  | step {x y : Holding} : Held a h held x → Refers a h x y → Held a h held y

variable {a b : Arena} {h h' : Heap} {held held' : Holders}

/-- Whether a scope or container leads to the same as before. -/
def Unchanged (a b : Arena) (h h' : Heap) : Holding → Prop
  | .scope id => (b.record id).parent = (a.record id).parent ∧
      (b.record id).bindings = (a.record id).bindings
  | .array r => h'.elements r = h.elements r
  | .object r => h'.object r = h.object r
  | .function r => h'.function? r = h.function? r

/-- Where the heap stays, only scopes can change. -/
theorem unchanged_of_records {x : Holding}
    (same : ∀ id, x = .scope id → (b.record id).parent = (a.record id).parent ∧
      (b.record id).bindings = (a.record id).bindings) : Unchanged a b h h x := by
  cases x with
  | scope id => exact same id rfl
  | array => rfl
  | object => rfl
  | function => rfl

theorem Refers.of_unchanged {x y : Holding} (realm : b.realm = a.realm)
    (unchanged : Unchanged a b h h' x) (refers : Refers b h' x y) : Refers a h x y := by
  cases refers with
  | parent above => exact .parent (unchanged.1 ▸ above)
  | binding member refers => exact .binding (unchanged.2 ▸ member) refers
  | element member refers => exact .element (unchanged ▸ member) refers
  | property member refers => exact .property (unchanged ▸ member) refers
  | prototype above => exact .prototype (unchanged ▸ above)
  | own found member refers => exact .own (unchanged ▸ found) member refers
  | closure found made own => exact .closure (unchanged ▸ found) made (realm ▸ own)
  | kept found member refers => exact .kept (unchanged ▸ found) member refers

theorem contents_of_unchanged {x : Holding} (unchanged : Unchanged a b h h' x) :
    h'.contents x = h.contents x := by
  cases x with
  | scope => rfl
  | array | object | function => simp only [Heap.contents, show _ = _ from unchanged]

namespace Held

theorem parent {id parent : ScopeId} (holds : Held a h held (.scope id))
    (above : (a.record id).parent = some parent) : Held a h held (.scope parent) :=
  .step holds (.parent above)

/-- Every record on the way up from a held one is held. -/
theorem of_climbs {id x : ScopeId} {path : List ScopeId} (holds : Held a h held (.scope id))
    (climbs : a.Climbs id path) (on : x ∈ path) : Held a h held (.scope x) := by
  induction climbs with
  | top => rwa [List.mem_singleton.1 on]
  | up here _ ih =>
    rcases List.mem_cons.1 on with rfl | on
    · exact holds
    · exact ih (holds.parent here) on

end Held

/-! ### Held things are found by the searches -/

theorem Arena.mem_ids {id : ScopeId} : id ∈ a.ids ↔ id.index < a.records.size := by
  simp only [ids, List.mem_map, List.mem_range]
  exact ⟨fun ⟨_, inside, same⟩ => same ▸ inside, fun inside => ⟨id.index, inside, rfl⟩⟩

theorem Arena.nodup_ids (a : Arena) : a.ids.Nodup :=
  List.Pairwise.map _ (fun _ _ apart same => apart (ScopeId.mk.inj same)) List.nodup_range

theorem Arena.mem_runningIds {id : ScopeId} :
    id ∈ a.runningIds ↔ (a.record id).phase = .running := by
  simp only [runningIds, List.mem_filter, mem_ids, decide_eq_true_eq]
  exact ⟨And.right, fun running => ⟨lt_size_of_allocated (by simp [running]), running⟩⟩

theorem Arena.scope_mem_holdings {id : ScopeId} :
    .scope id ∈ a.holdings h ↔ id.index < a.records.size := by
  rw [holdings, List.mem_append, or_iff_left (Heap.scope_not_mem_holdings id)]
  simp [mem_ids]

theorem Arena.mem_holdings_of_heap {x : Holding} (there : x ∈ h.holdings) : x ∈ a.holdings h :=
  List.mem_append_right _ there

/-- What is there is a scope or in the heap. -/
theorem Arena.holdings_cases {x : Holding} (there : x ∈ a.holdings h) :
    (∃ id, x = .scope id) ∨ x ∈ h.holdings := by
  rcases List.mem_append.1 there with scope | heap
  · obtain ⟨id, _, rfl⟩ := List.mem_map.1 scope
    exact .inl ⟨id, rfl⟩
  · exact .inr heap

/-- The home of a closure is a scope. -/
theorem Arena.scope_of_home {x y : Holding} (home : y ∈ a.home h x) : ∃ id, y = .scope id := by
  cases x with
  | scope | array | object => exact absurd home List.not_mem_nil
  | function r =>
    simp only [Arena.home] at home
    split at home
    · split at home
      · exact ⟨_, List.mem_singleton.1 home⟩
      · exact absurd home List.not_mem_nil
    · exact absurd home List.not_mem_nil

/-- What a step leads to is among the references. -/
theorem Refers.mem_references {x y : Holding} (refers : Refers a h x y) : y ∈ a.references h x := by
  cases refers with
  | parent above => simp [Arena.references, Arena.parentOf, above]
  | binding member refers =>
    exact List.mem_append_right _ (Holding.mem_ofValues (List.mem_map_of_mem member) refers)
  | element member refers =>
    exact List.mem_append_left _ (Holding.mem_ofValues (by simpa using member) refers)
  | property member refers =>
    exact List.mem_append_left _ (List.mem_append_left _ (Holding.mem_ofValues member refers))
  | prototype above => simp [Arena.references, Heap.contents, above]
  | own there member refers =>
    refine List.mem_append_left _ ?_
    simp only [Heap.contents, there]
    exact List.mem_append_left _ (Holding.mem_ofValues member refers)
  | closure there made own => simp [Arena.references, Arena.home, there, made, own]
  | kept there member refers =>
    refine List.mem_append_left _ ?_
    simp only [Heap.contents, there]
    exact List.mem_append_right _ (Holding.mem_ofValues member refers)

/-- A step from a container to a container is one of its contents. -/
theorem Refers.mem_contents {x y : Holding} (refers : Refers a h x y) (start : ∀ id, x ≠ .scope id)
    (target : ∀ id, y ≠ .scope id) : y ∈ h.contents x := by
  have reference := refers.mem_references
  cases x with
  | scope id => exact absurd rfl (start id)
  | array | object | function =>
    refine (List.mem_append.1 reference).resolve_right fun home => ?_
    obtain ⟨id, rfl⟩ := Arena.scope_of_home home
    exact target id rfl

/-- The contents of a container are what it refers to. -/
theorem Refers.of_content {x y : Holding} (content : y ∈ h.contents x) : Refers a h x y := by
  cases x with
  | scope => exact absurd content List.not_mem_nil
  | array r =>
    obtain ⟨v, member, refers⟩ := List.mem_filterMap.1 content
    exact .element (by simpa using member) refers
  | object r =>
    rcases List.mem_append.1 content with member | member
    · obtain ⟨v, member, refers⟩ := List.mem_filterMap.1 member
      exact .property member refers
    · obtain ⟨p, above, rfl⟩ := Option.map_eq_some_iff.1 (Option.mem_toList.1 member)
      exact .prototype above
  | function r =>
    cases found : h.function? r with
    | none => simp [Heap.contents, found] at content
    | some f =>
      simp only [Heap.contents, found] at content
      rcases List.mem_append.1 content with member | member
      · obtain ⟨v, member, refers⟩ := List.mem_filterMap.1 member
        exact .own found member refers
      · obtain ⟨v, member, refers⟩ := List.mem_filterMap.1 member
        exact .kept found member refers

theorem Refers.of_reference {x y : Holding} (reference : y ∈ a.references h x) :
    Refers a h x y := by
  cases x with
  | scope id =>
    rcases List.mem_append.1 reference with above | bound
    · obtain ⟨parent, up, rfl⟩ := Option.map_eq_some_iff.1 (Option.mem_toList.1 above)
      exact .parent up
    · obtain ⟨v, member, refers⟩ := List.mem_filterMap.1 bound
      obtain ⟨b, there, rfl⟩ := List.mem_map.1 member
      exact .binding there refers
  | array | object =>
    exact .of_content ((List.mem_append.1 reference).resolve_right List.not_mem_nil)
  | function r =>
    rcases List.mem_append.1 reference with content | home
    · exact .of_content content
    · simp only [Arena.home] at home
      split at home
      · rename_i known
        obtain ⟨f, found, made⟩ := Option.bind_eq_some_iff.1 known
        split at home
        · rename_i own
          rw [List.mem_singleton.1 home]
          exact .closure found made own
        · exact absurd home List.not_mem_nil
      · exact absurd home List.not_mem_nil

/-- A step to a container is one of the contents of a container, or of a binding. -/
theorem Refers.cases_container {vs : List Value} {x y : Holding} (refers : Refers a h x y)
    (inside : y ∈ h.holdings) : y ∈ a.outer vs ∨ y ∈ h.contents x := by
  have target (id : ScopeId) : y ≠ .scope id := by
    rintro rfl
    exact Heap.scope_not_mem_holdings id inside
  cases x with
  | scope id =>
    cases refers with
    | parent => exact absurd rfl (target _)
    | binding member refers =>
      exact .inl (Arena.mem_outer.2
        (.inr ⟨id, Holding.mem_ofValues (List.mem_map_of_mem member) refers⟩))
  | array | object | function => exact .inr (refers.mem_contents (fun _ => nofun) target)

theorem Refers.source_mem_holdings {x y : Holding} (refers : Refers a h x y) :
    x ∈ a.holdings h := by
  cases refers with
  | @parent id parent above =>
    refine Arena.scope_mem_holdings.2 (Nat.lt_of_not_le fun outside => ?_)
    rw [Arena.record_eq_default outside] at above
    cases above
  | @binding id b _ member refers =>
    refine Arena.scope_mem_holdings.2 (Nat.lt_of_not_le fun outside => ?_)
    rw [Arena.record_eq_default outside] at member
    exact absurd member List.not_mem_nil
  | element member refers =>
    exact Arena.mem_holdings_of_heap (Heap.mem_holdings_of_contents
      (Holding.mem_ofValues (by simpa using member) refers : _ ∈ h.contents (.array _)))
  | property member refers =>
    exact Arena.mem_holdings_of_heap (Heap.mem_holdings_of_contents
      (List.mem_append_left _ (Holding.mem_ofValues member refers) : _ ∈ h.contents (.object _)))
  | @prototype r p above =>
    refine Arena.mem_holdings_of_heap
      (Heap.mem_holdings_of_contents (x := .object r) (y := .object p) ?_)
    simp [Heap.contents, above]
  | own there | closure there | kept there =>
    exact Arena.mem_holdings_of_heap
      (Heap.function_mem_holdings.2 (Array.getElem?_eq_some_iff.1 there).1)

/-- Looking through the arena finds all that is held. -/
theorem Held.mem_retained {x : Holding} (holds : Held a h held x) (inside : x ∈ a.holdings h) :
    x ∈ a.retained h held := by
  rw [Arena.retained, mem_reachable_iff]
  induction holds with
  | root isRoot =>
    refine .root ?_ inside
    cases isRoot with
    | running running =>
      exact List.mem_append_left _
        (List.mem_map_of_mem (List.mem_append_left _ (Arena.mem_runningIds.2 running)))
    | handle member =>
      exact List.mem_append_left _ (List.mem_map_of_mem (List.mem_append_right _ member))
    | value member refers => exact List.mem_append_right _ (Holding.mem_ofValues member refers)
  | step before refers ih =>
    exact .step (ih refers.source_mem_holdings) refers.mem_references inside

/-- Only what is held is found by looking through the arena. -/
theorem held_of_mem_retained {x : Holding} (retained : x ∈ a.retained h held) :
    Held a h held x := by
  rw [Arena.retained, mem_reachable_iff] at retained
  induction retained with
  | root root _ =>
    rcases List.mem_append.1 root with scope | value
    · obtain ⟨id, member, rfl⟩ := List.mem_map.1 scope
      rcases List.mem_append.1 member with running | handle
      · exact .root (.running (Arena.mem_runningIds.1 running))
      · exact .root (.handle handle)
    · obtain ⟨v, member, refers⟩ := List.mem_filterMap.1 value
      exact .root (.value member refers)
  | step _ reference _ ih => exact .step ih (.of_reference reference)

/-- No container that is held was dropped. -/
theorem Held.mem_living {x : Holding} (holds : Held a h held x) (inside : x ∈ h.holdings) :
    x ∈ a.living h held.values := by
  refine Arena.mem_living (P := fun x => Held a h held x ∧ x ∈ h.holdings) (fun _ => And.right) ?_
    ⟨holds, inside⟩
  rintro x ⟨holds, inside⟩
  cases holds with
  | root isRoot =>
    cases isRoot with
    | running | handle => exact absurd inside (Heap.scope_not_mem_holdings _)
    | value member refers =>
      exact .inl (Arena.mem_outer.2 (.inl (Holding.mem_ofValues member refers)))
  | step before refers =>
    exact (refers.cases_container inside).imp_right fun content =>
      ⟨_, ⟨before, Heap.mem_holdings_of_contents content⟩, content⟩

/-! ### What is safe -/

/-- The handles that something refers to. -/
def Arena.refs (a : Arena) (h : Heap) (held : Holders) : List Handle :=
  a.handles h (a.living h held.values) held.scopes

/-- No function refers to a scope by its slot only. -/
def Heap.Pinned (h : Heap) : Prop :=
  ∀ r f id, h.function? r = some f → Heap.handleOf? f ≠ some (.slot id)

/-- The records of an arena are in order: those of the handles that are held outside are allocated,
and so are those of the closures that are held. -/
structure Safe (a : Arena) (h : Heap) (held : Holders) : Prop where
  tidy : a.Tidy
  chartered : a.Chartered
  linked : a.Linked (a.refs h held)
  pinned : h.Pinned
  scopes : ∀ id ∈ held.scopes, (a.record id).phase ≠ .free
  current : ∀ r f η, Held a h held (.function r) → h.function? r = some f →
    Heap.handleOf? f = some η → η.realm? = some a.realm → a.IsCurrent η

theorem alive_of_closure {r : FunctionRef} {f : FunctionObject} {η : Handle}
    (holds : Held a h held (.function r)) (found : h.function? r = some f)
    (made : Heap.handleOf? f = some η) : η.Alive (a.refs h held) := by
  have inside := Heap.function_mem_holdings.2 (Array.getElem?_eq_some_iff.1 found).1
  exact .self (Arena.mem_handles.2 (.inr (.inl ⟨r, f, holds.mem_living inside, found, made⟩)))

namespace Safe

variable (safe : Safe a h held)

include safe

/-- The handle of a held scope is there. -/
theorem handle {id : ScopeId} (holds : Held a h held (.scope id)) :
    ∃ η, (a.record id).handle? = some η ∧ η.Alive (a.refs h held) := by
  generalize same : Holding.scope id = x at holds
  induction holds generalizing id with
  | root isRoot =>
    cases isRoot with
    | running running =>
      cases same
      obtain ⟨η, anchored⟩ := Record.running_iff.1 running
      exact ⟨η, Record.handle?_of_anchor? anchored,
        .self (Arena.mem_handles.2 (.inl ⟨id, anchored⟩))⟩
    | handle member =>
      cases same
      obtain ⟨η, handle⟩ := Record.allocated_iff.1 (safe.scopes id member)
      exact ⟨η, handle, .self (Arena.mem_handles.2 (.inr (.inr ⟨id, member, handle⟩)))⟩
    | value _ refers => exact absurd (same ▸ refers) (Holding.ofValue?_ne_scope _ id)
  | step before refers ih =>
    subst same
    cases refers with
    | parent above =>
      obtain ⟨η, handle, alive⟩ := ih rfl
      rw [safe.chartered.parent handle] at above
      obtain ⟨θ, up, rfl⟩ := Option.map_eq_some_iff.1 above
      exact ⟨θ, safe.linked η (safe.chartered.isCurrent handle) alive θ up, alive.parent up⟩
    | closure found made own =>
      exact ⟨_, safe.current _ _ _ before found made own, alive_of_closure before found made⟩
    | binding _ refers | element _ refers | property _ refers | own _ _ refers | kept _ _ refers =>
      exact absurd refers (Holding.ofValue?_ne_scope _ id)

theorem allocated {id : ScopeId} (holds : Held a h held (.scope id)) :
    (a.record id).phase ≠ .free := by
  obtain ⟨η, handle, -⟩ := safe.handle holds
  exact Record.allocated_iff.2 ⟨η, handle⟩

/-- The way up from a held scope comes to an end. -/
theorem climbs {id : ScopeId} (holds : Held a h held (.scope id)) : ∃ path, a.Climbs id path := by
  obtain ⟨η, handle, alive⟩ := safe.handle holds
  obtain ⟨path, climbs, -⟩ := safe.linked.climbs safe.chartered handle alive
  exact ⟨path, climbs⟩

/-- The scopes above a held one are held, and its handle comes by them. -/
theorem holds_chain {id : ScopeId} (holds : Held a h held (.scope id)) {η θ : Handle}
    (handle : (a.record id).handle? = some η) (on : θ ∈ η.chain) :
    Held a h held (.scope θ.scope) := by
  induction η generalizing id with
  | under number scope parent ih =>
    rcases List.mem_cons.1 on with rfl | on
    · rwa [safe.chartered.scope handle]
    · have alive : (Handle.under number scope parent).Alive (a.refs h held) := by
        obtain ⟨ξ, known, alive⟩ := safe.handle holds
        exact Option.some.inj (known.symm.trans handle) ▸ alive
      have current := safe.linked _ (safe.chartered.isCurrent handle) alive parent rfl
      exact ih (holds.parent (safe.chartered.parent handle)) current on
  | top | slot =>
    rw [List.mem_singleton.1 on, safe.chartered.scope handle]
    exact holds

/-- A held scope has its handle at hand. -/
theorem moored {alive : Handle → Bool}
    (enough : ∀ η : Handle, η.Alive (a.refs h held) → alive η = true)
    {id : ScopeId} (holds : Held a h held (.scope id)) :
    ∃ η, a.Moored alive id η ∧ η.Alive (a.refs h held) := by
  obtain ⟨η, handle, lives⟩ := safe.handle holds
  exact ⟨η, ⟨handle, .inr (enough η lives)⟩, lives⟩

end Safe

end Scriptlet
