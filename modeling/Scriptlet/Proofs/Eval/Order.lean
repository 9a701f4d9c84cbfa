import Scriptlet.Proofs.Eval.Contract
import Scriptlet.Proofs.Scope.Reclaiming
import Scriptlet.Proofs.Scope.Standing

/-!
Order among the scopes and closures of a state.

In an orderly state every scope that runs stands, and so does that of every closure which was not
lost. Main statement: what an evaluation does to a state keeps it orderly, the end of a scope
included, which may free the records of that scope and of others.
-/

namespace Scriptlet

/-! ### Handles in use -/

/-- The handles that runs and functions which were not dropped refer to. -/
def State.refs (s : State) : List Handle :=
  s.scopes.handles s.heap s.living []

namespace Heap

variable {h : Heap} {r : FunctionRef} {η : Handle}

theorem handleOf?_eq_some_iff {f : FunctionObject} :
    handleOf? f = some η ↔ ∃ fn k, f.callable = .closure fn η k := by
  unfold handleOf?
  cases f.callable <;> simp

theorem closureAt_of_handle {f : FunctionObject} (found : h.function? r = some f)
    (made : handleOf? f = some η) : ∃ fn k, h.ClosureAt r fn η k := by
  obtain ⟨fn, k, callable⟩ := handleOf?_eq_some_iff.1 made
  exact ⟨fn, k, f, found, callable⟩

theorem ClosureAt.mem_holdings {fn : Function} {k : Nat} (there : h.ClosureAt r fn η k) :
    .function r ∈ h.holdings :=
  let ⟨_, found, _⟩ := there
  function_mem_holdings.2 (Array.getElem?_eq_some_iff.1 found).1

end Heap

theorem State.mem_refs {s : State} {η : Handle} :
    η ∈ s.refs ↔ (∃ id, (s.scopes.record id).anchor? = some η) ∨
      ∃ r fn k, s.heap.ClosureAt r fn η k ∧ .function r ∉ s.memory.dropped := by
  have living {r : FunctionRef} : .function r ∈ s.living ↔
      .function r ∈ s.heap.holdings ∧ .function r ∉ s.memory.dropped := by
    simp [State.living]
  simp only [State.refs, Arena.mem_handles, List.not_mem_nil, false_and, exists_false, or_false]
  refine or_congr_right ⟨?_, ?_⟩
  · rintro ⟨r, f, there, found, made⟩
    obtain ⟨fn, k, closure⟩ := Heap.closureAt_of_handle found made
    exact ⟨r, fn, k, closure, (living.1 there).2⟩
  · rintro ⟨r, fn, k, closure, kept⟩
    have inside := closure.mem_holdings
    obtain ⟨f, found, callable⟩ := closure
    exact ⟨r, f, living.2 ⟨inside, kept⟩, found, Heap.handleOf?_eq_some_iff.2 ⟨fn, k, callable⟩⟩

theorem State.isAlive_of_alive {s : State} {η : Handle} (alive : η.Alive s.refs) :
    s.isAlive η = true := by
  unfold State.isAlive
  split
  · rfl
  · exact Arena.isAlive_iff.2 alive

/-- What holds between constructs. -/
structure State.Orderly (s : State) : Prop where
  tidy : s.scopes.Tidy
  chartered : s.scopes.Chartered
  /-- The arena is that of the realm. -/
  realm : s.scopes.realm = s.realm.id
  linked : s.scopes.Linked s.refs
  /-- The scope of a closure is one of the realm that made it. -/
  homes : ∀ r fn η k, s.heap.ClosureAt r fn η k → η.realm? = some k
  /-- The scope of a closure that was not lost is still that which it was made in. -/
  current : ∀ r fn η, s.heap.ClosureAt r fn η s.realm.id → r ∉ s.memory.lost → s.scopes.IsCurrent η
  dropped : ∀ r, .function r ∈ s.memory.dropped → r ∈ s.memory.lost
  depth : s.depth = s.scopes.openCalls.length
  shallow : s.depth ≤ s.realm.maxDepth

/-- A later state in which nothing that was started since then is under way. -/
structure State.Settled (s t : State) : Prop where
  grown : s.scopes.Grown t.scopes
  running : ∀ id, (t.scopes.record id).phase = .running → (s.scopes.record id).phase = .running
  depth : t.depth = s.depth
  realm : t.realm = s.realm
  /-- No closures of other realms were made. -/
  foreign : ∀ r fn η k, k ≠ s.realm.id → t.heap.ClosureAt r fn η k → s.heap.ClosureAt r fn η k

namespace State

variable {s t u o : State} {η : Handle} {env : ScopeId}

namespace Settled

theorem refl (s : State) : Settled s s :=
  ⟨.refl _, fun _ running => running, rfl, rfl, fun _ _ _ _ _ there => there⟩

theorem trans (first : Settled s t) (second : Settled t u) : Settled s u := by
  refine
    ⟨first.grown.trans second.grown, fun id running => first.running id (second.running id running),
    second.depth.trans first.depth, second.realm.trans first.realm, fun r fn η k other there => ?_⟩
  have other' : k ≠ t.realm.id := by rwa [first.realm]
  exact first.foreign r fn η k other (second.foreign r fn η k other' there)

theorem depth_eq (settled : Settled s t) (depth : s.depth = s.scopes.openCalls.length) :
    t.depth = t.scopes.openCalls.length := by
  rw [settled.depth, depth, settled.grown.length_openCalls settled.running]

/-- Nothing but the heap has changed, and no closures were made. -/
theorem of_heap (scopes : t.scopes = s.scopes) (depth : t.depth = s.depth)
    (realm : t.realm = s.realm)
    (same : s.heap.SameClosures t.heap) : Settled s t :=
  ⟨scopes ▸ .refl _, fun _ running => scopes ▸ running, depth, realm,
    fun r fn η k _ there => (same r fn η k).1 there⟩

end Settled

namespace Orderly

section Use

/-- A scope that runs has its handle at hand. -/
theorem running_handle (running : (s.scopes.record env).phase = .running) :
    ∃ η, (s.scopes.record env).handle? = some η ∧ η.Alive s.refs := by
  obtain ⟨η, anchored⟩ := Record.running_iff.1 running
  exact ⟨η, Record.handle?_of_anchor? anchored, .self (mem_refs.2 (.inl ⟨env, anchored⟩))⟩

theorem moored (handle : (s.scopes.record env).handle? = some η) (alive : η.Alive s.refs) :
    s.scopes.Moored s.isAlive env η :=
  ⟨handle, .inr (isAlive_of_alive alive)⟩

variable (orderly : s.Orderly)

include orderly

/-- So has that of a closure that can be called. -/
theorem closure_handle {r : FunctionRef} {fn : Function} (calls : s.Calls r fn η) :
    (s.scopes.record η.scope).handle? = some η ∧ η.Alive s.refs := by
  refine ⟨orderly.current r fn η calls.there calls.kept, .self (mem_refs.2 (.inr ?_))⟩
  exact ⟨r, fn, _, calls.there, fun dropped => calls.kept (orderly.dropped r dropped)⟩

theorem stands_of_handle (handle : (s.scopes.record env).handle? = some η)
    (alive : η.Alive s.refs) :
    s.scopes.Stands env :=
  orderly.linked.stands orderly.chartered handle alive

/-- A scope that runs stands. -/
theorem stands (running : (s.scopes.record env).phase = .running) : s.scopes.Stands env := by
  obtain ⟨η, handle, alive⟩ := running_handle running
  exact orderly.stands_of_handle handle alive

end Use

/-- Fresh scopes are in order if no closure is of their realm. -/
theorem fresh (scopes : s.scopes = .new s.realm.id) (memory : s.memory = {}) (depth : s.depth = 0)
    (homes : ∀ r fn η k, s.heap.ClosureAt r fn η k → η.realm? = some k)
    (none : ∀ r fn η, ¬s.heap.ClosureAt r fn η s.realm.id) : s.Orderly where
  tidy := scopes ▸ Arena.tidy_new _
  chartered := scopes ▸ Arena.chartered_new _
  realm := by rw [scopes, Arena.new]
  linked := scopes ▸ Arena.linked_new _ _
  homes := homes
  current r fn η there _ := absurd there (none r fn η)
  dropped r dropped := by
    rw [memory] at dropped
    cases dropped
  depth := by
    rw [depth, scopes]
    rfl
  shallow := depth ▸ Nat.zero_le _

/-! ### Steps that leave the handles of records -/

/-- Records keep their handles, no scope starts to run, and new closures are made where one runs. -/
theorem extend (orderly : s.Orderly) (tidy : t.scopes.Tidy) (chartered : t.scopes.Chartered)
    (arena : t.scopes.realm = s.scopes.realm) (settled : s.Settled t) (memory : t.memory = s.memory)
    (handle : ∀ id, (t.scopes.record id).handle? = (s.scopes.record id).handle?)
    (closures : ∀ r fn η k, t.heap.ClosureAt r fn η k → s.heap.ClosureAt r fn η k ∨
      k = s.realm.id ∧ s.scopes.IsCurrent η ∧ η.Alive s.refs) : t.Orderly where
  tidy := tidy
  chartered := chartered
  realm := by rw [arena, settled.realm, orderly.realm]
  linked := by
    refine (orderly.linked.mono fun η alive => alive.of_all fun θ member => ?_).of_same handle
    rcases mem_refs.1 member with ⟨id, anchored⟩ | ⟨r, fn, k, there, kept⟩
    · have known := Record.handle?_of_anchor? anchored
      rw [handle] at known
      have runs := settled.running id (Record.running_iff.2 ⟨θ, anchored⟩)
      exact .self (mem_refs.2 (.inl ⟨id, Record.anchor?_of_running runs known⟩))
    · rcases closures r fn θ k there with before | ⟨-, -, alive⟩
      · exact .self (mem_refs.2 (.inr ⟨r, fn, k, before, memory ▸ kept⟩))
      · exact alive
  homes r fn η k there := by
    rcases closures r fn η k there with before | ⟨rfl, current, -⟩
    · exact orderly.homes r fn η k before
    · rw [orderly.chartered.realm current, orderly.realm]
  current r fn η there kept := by
    rw [Arena.IsCurrent, handle]
    rw [settled.realm] at there
    rcases closures r fn η _ there with before | ⟨-, current, -⟩
    · exact orderly.current r fn η before (memory ▸ kept)
    · exact current
  dropped := memory ▸ orderly.dropped
  depth := settled.depth_eq orderly.depth
  shallow := by
    rw [settled.depth, settled.realm]
    exact orderly.shallow

theorem heap {h : Heap} (orderly : s.Orderly) (same : s.heap.SameClosures h) :
    Orderly { s with heap := h } ∧ s.Settled { s with heap := h } := by
  have settled : s.Settled { s with heap := h } := .of_heap rfl rfl rfl same
  exact ⟨orderly.extend orderly.tidy orderly.chartered rfl settled rfl (fun _ => rfl)
    fun r fn η k there => .inl ((same r fn η k).1 there), settled⟩

theorem console (orderly : s.Orderly) (lines : List String) :
    Orderly { s with console := lines } ∧ s.Settled { s with console := lines } := by
  have settled : s.Settled { s with console := lines } := .of_heap rfl rfl rfl (.refl _)
  exact ⟨orderly.extend orderly.tidy orderly.chartered rfl settled rfl (fun _ => rfl)
    fun r fn η k there => .inl there, settled⟩

/-- Closures that other realms make concern no scope. -/
theorem foreign {h : Heap} (orderly : s.Orderly) (lines : List String)
    (homes : ∀ r fn η k, h.ClosureAt r fn η k → η.realm? = some k)
    (own : ∀ r fn η, h.ClosureAt r fn η s.realm.id → s.heap.ClosureAt r fn η s.realm.id) :
    Orderly { s with heap := h, console := lines } where
  tidy := orderly.tidy
  chartered := orderly.chartered
  realm := orderly.realm
  linked := by
    rintro η current ⟨ξ, member, on⟩ θ above
    refine orderly.linked η current ⟨ξ, ?_, on⟩ θ above
    refine mem_refs.2 ((mem_refs.1 member).imp_right ?_)
    rintro ⟨r, fn, k, there, kept⟩
    -- a handle above which there is one of the arena is itself one of the arena
    have realm : some s.realm.id = some k := calc
      some s.realm.id = η.realm? := by rw [orderly.chartered.realm current, orderly.realm]
      _ = ξ.realm? := Handle.realm?_of_mem_chain on
      _ = some k := homes r fn ξ k there
    cases realm
    exact ⟨r, fn, _, own r fn ξ there, kept⟩
  homes := homes
  current r fn η there kept := orderly.current r fn η (own r fn η there) kept
  dropped := orderly.dropped
  depth := orderly.depth
  shallow := orderly.shallow

theorem edit {given : Value → Prop} {a : Arena} (orderly : s.Orderly)
    (edit : s.scopes.Edit given a) :
    Orderly { s with scopes := a } ∧ s.Settled { s with scopes := a } := by
  obtain ⟨id, name, b, -, rfl⟩ := edit.bind_eq
  have settled : s.Settled { s with scopes := s.scopes.bind id name b } :=
    ⟨.bind .., fun x running => by rwa [Arena.phase_bind] at running, rfl, rfl,
      fun _ _ _ _ _ there => there⟩
  exact ⟨orderly.extend (Arena.tidy_bind orderly.tidy ..) (orderly.chartered.bind ..)
    (Arena.realm_bind ..) settled rfl (fun _ => Arena.handle?_bind ..) fun _ _ _ _ there =>
      .inl there,
    settled⟩

/-- A closure is made with the handle of the scope that runs. -/
theorem withClosure_eq (running : (s.scopes.record env).phase = .running)
    (name : String) (fn : Function) :
    ∃ η, (s.scopes.record env).handle? = some η ∧ η.Alive s.refs ∧
      s.withClosure name fn env = { s with
        heap :=
  (s.heap.newFunction { name := name, callable := .closure fn η s.realm.id }).2 } := by
  obtain ⟨η, handle, alive⟩ := running_handle running
  refine ⟨η, handle, alive, ?_⟩
  rw [State.withClosure, Arena.capture_eq (moored handle alive)]

theorem closure (orderly : s.Orderly) (running : (s.scopes.record env).phase = .running)
    (name : String) (fn : Function) :
    Orderly (s.withClosure name fn env) ∧ s.Settled (s.withClosure name fn env) := by
  obtain ⟨η, handle, alive, same⟩ := withClosure_eq running name fn
  rw [same]
  have closures {r : FunctionRef} {fn' : Function} {θ : Handle} {k : Nat} (there : Heap.ClosureAt
      (s.heap.newFunction { name := name, callable := .closure fn η s.realm.id }).2 r fn' θ k) :
      s.heap.ClosureAt r fn' θ k ∨ k = s.realm.id ∧ s.scopes.IsCurrent θ ∧ θ.Alive s.refs := by
    refine (Heap.closureAt_newFunction.1 there).imp_right fun ⟨_, made⟩ => ?_
    cases made
    exact ⟨rfl, orderly.chartered.isCurrent handle, alive⟩
  refine ⟨orderly.extend orderly.tidy orderly.chartered rfl ?_ rfl (fun _ => rfl)
    fun _ _ _ _ => closures, ?_⟩
  all_goals exact ⟨.refl _, fun _ running => running, rfl, rfl, fun r fn' θ k other there =>
    (closures there).resolve_right fun made => other made.1⟩

/-! ### The start of a scope -/

/-- A scope is opened under one with a handle that is there. -/
theorem opened_eq (handle : (s.scopes.record env).handle? = some η) (alive : η.Alive s.refs)
    (kind : ScopeKind) :
    s.opened kind env = { s with scopes := (s.scopes.openUnder kind env η).2 } := by
  rw [State.opened, Arena.push_eq kind (moored handle alive)]

/-- A scope is opened, for a block or for a call. -/
theorem opened {kind : ScopeKind} (orderly : s.Orderly)
    (handle : (s.scopes.record env).handle? = some η) (alive : η.Alive s.refs)
    (scopes : t.scopes = (s.scopes.openUnder kind env η).2) (heap : t.heap = s.heap)
    (realm : t.realm = s.realm) (memory : t.memory = s.memory)
    (depth : t.depth = t.scopes.openCalls.length) (shallow : t.depth ≤ t.realm.maxDepth) :
    t.Orderly where
  tidy := scopes ▸ Arena.tidy_openUnder orderly.tidy kind env η
  chartered := scopes ▸ orderly.chartered.openUnder orderly.tidy kind handle
  realm := by rw [scopes, Arena.realm_openUnder, realm, orderly.realm]
  linked := by
    rw [scopes]
    refine orderly.linked.openUnder orderly.tidy orderly.chartered kind handle ?_
    rintro θ ⟨ξ, member, on⟩
    rcases mem_refs.1 member with ⟨id, anchored⟩ | ⟨r, fn, k, there, kept⟩
    · rw [scopes, Arena.record_openUnder orderly.tidy] at anchored
      split at anchored
      · obtain rfl : s.scopes.freshHandle η = ξ := Option.some.inj anchored
        rcases List.mem_cons.1 on with rfl | on
        · exact .inl rfl
        · obtain ⟨ζ, there, higher⟩ := alive
          exact .inr ⟨ζ, there, Handle.chain_trans higher on⟩
      · exact .inr ⟨ξ, mem_refs.2 (.inl ⟨id, anchored⟩), on⟩
    · exact .inr ⟨ξ, mem_refs.2 (.inr ⟨r, fn, k, heap ▸ there, memory ▸ kept⟩), on⟩
  homes := heap ▸ orderly.homes
  current r fn θ there kept := by
    rw [heap, realm] at there
    rw [scopes]
    exact Arena.isCurrent_openUnder orderly.tidy kind
      (orderly.current r fn θ there (memory ▸ kept))
  dropped := memory ▸ orderly.dropped
  depth := depth
  shallow := shallow

/-! ### The end of a scope -/

/-- What the end of a scope leaves of the arena and of what is remembered. -/
structure Ends (s : State) (id : ScopeId) (t : State) : Prop where
  tidy : t.scopes.Tidy
  chartered : t.scopes.Chartered
  realm : t.scopes.realm = s.scopes.realm
  linked : t.scopes.Linked t.refs
  current : ∀ r fn η, s.heap.ClosureAt r fn η s.realm.id → r ∉ t.memory.lost → t.scopes.IsCurrent η
  dropped : ∀ r, .function r ∈ t.memory.dropped → r ∈ t.memory.lost
  /-- The other scopes that run go on, and none starts to run. -/
  others : ∀ x, x ≠ id → (s.scopes.record x).phase = .running →
    t.scopes.record x = s.scopes.record x
  running : ∀ x, (t.scopes.record x).phase = .running →
    x ≠ id ∧ (s.scopes.record x).phase = .running

section Close

variable {id : ScopeId} (orderly : s.Orderly) (root : id ≠ Arena.root)

include orderly root

/-- The end of a scope is noted, and nothing is freed. -/
theorem ends_retire (same : t = { s with scopes := s.scopes.retire id }) : Ends s id t := by
  subst same
  have running (x : ScopeId) (runs : ((s.scopes.retire id).record x).phase = .running) :
      x ≠ id ∧ (s.scopes.record x).phase = .running :=
    ⟨fun same => Arena.phase_retire_self root (same ▸ runs), Arena.running_of_retire runs⟩
  refine ⟨Arena.tidy_retire orderly.tidy id, orderly.chartered.retire id, Arena.realm_retire ..,
    (orderly.linked.mono fun η alive => alive.of_all fun θ member => ?_).of_same
      (Arena.handle?_retire s.scopes id), fun r fn η there kept => ?_, orderly.dropped,
    fun x other _ => Arena.record_retire_of_ne other, running⟩
  · rcases mem_refs.1 member with ⟨x, anchored⟩ | closure
    · have known := Record.handle?_of_anchor? anchored
      rw [Arena.handle?_retire] at known
      have runs := (running x (Record.running_iff.2 ⟨θ, anchored⟩)).2
      exact .self (mem_refs.2 (.inl ⟨x, Record.anchor?_of_running runs known⟩))
    · exact .self (mem_refs.2 (.inr closure))
  · rw [Arena.IsCurrent, Arena.handle?_retire]
    exact orderly.current r fn η there kept

variable (running : (s.scopes.record id).phase = .running) {values : List Value}
  (closes : s.Closes id values t)

include running closes

omit orderly closes in
/-- What is found when a scope ends is what is held once its end is noted. -/
theorem retained_retire : (s.scopes.retire id).retained s.heap { values := values } =
    (s.scopes.loosen id).retained s.heap { values := values } := by
  rw [Arena.retire_eq root running]
  rfl

/-- Nothing that is held turns out to have been lost, so that the arena is safe. -/
theorem safe_retire : Safe (s.scopes.retire id) s.heap { values := values } where
  tidy := Arena.tidy_retire orderly.tidy id
  chartered := orderly.chartered.retire id
  linked := by
    refine (orderly.linked.mono fun η alive => alive.of_all fun θ member => ?_).of_same
      (Arena.handle?_retire s.scopes id)
    rcases Arena.mem_handles.1 member with
      ⟨x, anchored⟩ | ⟨r, f, living, found, made⟩ | ⟨x, there, -⟩
    · have known := Record.handle?_of_anchor? anchored
      rw [Arena.handle?_retire] at known
      have runs := Arena.running_of_retire (Record.running_iff.2 ⟨θ, anchored⟩)
      exact .self (mem_refs.2 (.inl ⟨x, Record.anchor?_of_running runs known⟩))
    · obtain ⟨fn, k, closure⟩ := Heap.closureAt_of_handle found made
      refine .self (mem_refs.2 (.inr ⟨r, fn, k, closure, fun dropped => ?_⟩))
      exact closes.dropped _ dropped (Arena.living_of_bindings (Arena.bindings_retire _ id) living)
    · exact absurd there List.not_mem_nil
  pinned r f x found made := by
    obtain ⟨fn, k, closure⟩ := Heap.closureAt_of_handle found made
    have home := orderly.homes r fn _ k closure
    cases home
  scopes x member := absurd member List.not_mem_nil
  current r f η holds found made own := by
    obtain ⟨fn, k, closure⟩ := Heap.closureAt_of_handle found made
    have home := orderly.homes r fn η k closure
    rw [own, Arena.realm_retire, orderly.realm] at home
    cases home
    have retained := holds.mem_retained (Arena.mem_holdings_of_heap closure.mem_holdings)
    rw [retained_retire root running] at retained
    rw [Arena.IsCurrent, Arena.handle?_retire]
    exact orderly.current r fn η closure fun lost => closes.lost r lost retained

omit orderly root running in
/-- What refers to a handle after a release did so when the end of the scope was noted. -/
theorem refs_of_release (member : η ∈ t.refs)
    (sweeps : Sweeps s.heap { values := values } (s.scopes.retire id) t.scopes) :
    η ∈ (s.scopes.retire id).refs s.heap { values := values } := by
  have heap : t.heap = s.heap := by rw [closes.same]
  rcases mem_refs.1 member with ⟨x, anchored⟩ | ⟨r, fn, k, closure, kept⟩
  · have same := sweeps.record_of_allocated
      (Record.allocated_iff.2 ⟨η, Record.handle?_of_anchor? anchored⟩)
    exact Arena.mem_handles.2 (.inl ⟨x, same ▸ anchored⟩)
  · rw [heap] at closure
    have living : .function r ∈ s.scopes.living s.heap values :=
      Classical.not_not.1 fun out => kept ((closes.drops _).2 ⟨closure.mem_holdings, out⟩)
    obtain ⟨f, found, callable⟩ := closure
    exact Arena.mem_handles.2 (.inr (.inl ⟨r, f,
      Arena.living_of_bindings (fun x => (Arena.bindings_retire _ id x).symm) living, found,
      Heap.handleOf?_eq_some_iff.2 ⟨fn, k, callable⟩⟩))

theorem ends_release : Ends s id t := by
  have safe := orderly.safe_retire root running closes
  obtain ⟨tidy, sweeps, linked⟩ := releases_release orderly.tidy safe
  have scopes : t.scopes = s.scopes.release s.heap { values := values } id := by rw [closes.same]
  rw [← scopes] at tidy sweeps linked
  have there {x : ScopeId} (runs : (s.scopes.record x).phase = .running) (other : x ≠ id) :
      Held (s.scopes.retire id) s.heap { values := values } (.scope x) := by
    refine .root (.running ?_)
    rwa [Arena.record_retire_of_ne other]
  have known {r : FunctionRef} {fn : Function} {η : Handle} {k : Nat}
      (closure : s.heap.ClosureAt r fn η k) (kept : r ∉ t.memory.lost) :
      Held (s.scopes.retire id) s.heap { values := values } (.function r) := by
    refine held_of_mem_retained ?_
    rw [retained_retire root running]
    exact Classical.not_not.1 fun out => kept ((closes.loses r).2 ⟨closure.mem_holdings, out⟩)
  refine ⟨tidy, sweeps.chartered (orderly.chartered.retire id),
    sweeps.realm.trans (Arena.realm_retire ..), ?_, fun r fn η closure kept => ?_,
    fun r dropped => ?_, fun x other runs => ?_, fun x runs => ?_⟩
  · exact linked.mono fun η alive => alive.mono fun θ member => refs_of_release closes member sweeps
  · have holds := known closure kept
    obtain ⟨f, found, callable⟩ := closure
    have made := Heap.handleOf?_eq_some_iff.2 ⟨fn, _, callable⟩
    have own : η.realm? = some (s.scopes.retire id).realm := by
      rw [Arena.realm_retire, orderly.realm]
      exact orderly.homes r fn η _ ⟨f, found, callable⟩
    rw [Arena.IsCurrent, sweeps.record (.step holds (.closure found made own))]
    exact safe.current r f η holds found made own
  · obtain ⟨inside, gone⟩ := (closes.drops _).1 dropped
    refine (closes.loses r).2 ⟨inside, fun retained => gone ?_⟩
    rw [← retained_retire root running] at retained
    exact Arena.living_of_bindings (Arena.bindings_retire _ id)
      ((held_of_mem_retained retained).mem_living inside)
  · rw [sweeps.record (there runs other), Arena.record_retire_of_ne other]
  · have same := sweeps.record_of_allocated (by rw [runs]; simp : (t.scopes.record x).phase ≠ .free)
    rw [same] at runs
    exact ⟨fun here => Arena.phase_retire_self root (here ▸ runs), Arena.running_of_retire runs⟩

end Close

/-- What ran before a scope was opened and ended is as it was. -/
theorem Ends.settled {kind : ScopeKind} {v : State} (ends : Ends t s.scopes.nextSlot v)
    (tidy : s.scopes.Tidy) (scopes : o.scopes = (s.scopes.openUnder kind env η).2)
    (heap : o.heap = s.heap) (realm : o.realm = s.realm) (settled : o.Settled t)
    (left : v.heap = t.heap) (same : v.realm = s.realm) :
    s.Settled { v with depth := s.depth } := by
  have record (x : ScopeId) := Arena.record_openUnder tidy kind env x η
  have old {x : ScopeId} (runs : (s.scopes.record x).phase = .running) : x ≠ s.scopes.nextSlot := by
    rintro rfl
    rw [Arena.nextSlot_free tidy] at runs
    cases runs
  have kept {x : ScopeId} (runs : (s.scopes.record x).phase = .running) :
      o.scopes.record x = s.scopes.record x := by
    rw [scopes, record, if_neg (old runs)]
  have after : ∀ x, (s.scopes.record x).phase = .running →
      v.scopes.record x = t.scopes.record x := by
    intro x runs
    refine ends.others x (old runs) (settled.grown.running ?_)
    rwa [kept runs]
  refine ⟨⟨fun x runs => ?_, fun x runs => ?_, fun x runs => ?_, fun x name runs bound => ?_⟩,
    fun x runs => ?_, rfl, same, fun r fn θ k other there => ?_⟩
  · rw [after x runs, settled.grown.mooring x (by rwa [kept runs]), kept runs]
  · rw [after x runs, settled.grown.kind x (by rwa [kept runs]), kept runs]
  · rw [after x runs, settled.grown.parent x (by rwa [kept runs]), kept runs]
  · rw [Arena.binds, after x runs]
    exact settled.grown.names x name (by rwa [kept runs]) (by rwa [Arena.binds, kept runs])
  · obtain ⟨other, runs⟩ := ends.running x runs
    have before := settled.running x runs
    rwa [scopes, record, if_neg other] at before
  · rw [← heap]
    exact settled.foreign r fn θ k (by rwa [realm]) (left ▸ there)

/-- The scope ends in which all from `o` to `t` went on, and `v` is left of it. -/
theorem closed {kind : ScopeKind} {v : State} (before : s.Orderly)
    (scopes : o.scopes = (s.scopes.openUnder kind env η).2) (heap : o.heap = s.heap)
    (realm : o.realm = s.realm) (orderly : t.Orderly) (settled : o.Settled t)
    (closed : t.closed s.scopes.nextSlot = some v) (same : u = { v with depth := s.depth }) :
    u.Orderly ∧ s.Settled u := by
  have root := Arena.nextSlot_ne_root before.tidy
  have running : (t.scopes.record s.scopes.nextSlot).phase = .running := by
    refine settled.grown.running ?_
    rw [scopes, Arena.record_openUnder before.tidy, if_pos rfl]
    rfl
  have ends : Ends t s.scopes.nextSlot v := by
    rcases closed_cases closed with ⟨-, retired⟩ | ⟨-, values, closes⟩
    · exact orderly.ends_retire root retired
    · exact orderly.ends_release root running closes
  have rest := closed_eq closed
  have heap' : v.heap = t.heap := by rw [rest]
  have realm' : v.realm = s.realm := by rw [rest, settled.realm, realm]
  have back := ends.settled before.tidy scopes heap realm settled heap' realm'
  rw [same]
  exact ⟨{
    tidy := ends.tidy
    chartered := ends.chartered
    realm := by rw [ends.realm, orderly.realm, settled.realm, realm, realm']
    linked := ends.linked
    homes := heap' ▸ orderly.homes
    current := fun r fn η there lost => by
      refine ends.current r fn η ?_ lost
      rw [settled.realm, realm, ← realm', ← heap']
      exact there
    dropped := ends.dropped
    depth := back.depth_eq before.depth
    shallow := by
      rw [realm']
      exact before.shallow }, back⟩

end Orderly

end State

end Scriptlet
