import Scriptlet.Proofs.Eval.Discipline

/-!
Which scopes are meant by the identifiers in use.

An identifier is a slot of an arena, and slots are issued again once they are free. A ledger counts
the issues of each slot and notes for which issue an identifier or a handle was handed out, so that
it can be told whether a scope that is referred to is still the one that was meant. Main statements:
scopes under way, records above one that is in use, closures that can be called and whatever is
found by looking through an arena refer to the latest issues of slots of that arena, and this is so
through all that the evaluator does.
-/

namespace Scriptlet

/-- A scope: the arena and the slot that it is in, and which of the issues of the slot. -/
structure Issue where
  realm : Nat
  slot : ScopeId
  turn : Nat

/-- What was issued by the arenas so far, and to whom. -/
structure Ledger where
  /-- How often a slot was issued again. -/
  issued : Nat → ScopeId → Nat := fun _ _ => 0
  /-- What the scopes of an arena were given that are under way, the last one first. -/
  running : Nat → List Issue := fun realm => [⟨realm, Arena.root, 0⟩]
  /-- The scope that a record was opened under. -/
  above : Nat → ScopeId → Option Issue := fun _ _ => none
  /-- The scope that a closure was made in. -/
  made : FunctionRef → Option Issue := fun _ => none
  /-- The scope that a handle was made for, by the arena that made it and its number. -/
  named : Nat → Nat → Option Issue := fun realm number =>
    if number = 0 then some ⟨realm, Arena.root, 0⟩ else none

namespace Ledger

/-- The scope that the latest issue of a slot stands for. -/
def latest (l : Ledger) (k : Nat) (slot : ScopeId) : Issue :=
  ⟨k, slot, l.issued k slot⟩

/-- The next issue of a slot. -/
def next (l : Ledger) (k : Nat) (slot : ScopeId) : Issue :=
  ⟨k, slot, l.issued k slot + 1⟩

/-- A scope opens under another one, and is given a slot and a handle. -/
def opened (l : Ledger) (k : Nat) (slot : ScopeId) (handle : Nat) (parent : Issue) : Ledger where
  issued realm id := if realm = k ∧ id = slot then l.issued k slot + 1 else l.issued realm id
  running realm := if realm = k then l.next k slot :: l.running k else l.running realm
  above realm id := if realm = k ∧ id = slot then some parent else l.above realm id
  made := l.made
  named realm number :=
    if realm = k ∧ number = handle then some (l.next k slot) else l.named realm number

/-- The last scope to open ends. -/
def closed (l : Ledger) (k : Nat) : Ledger :=
  { l with running := fun realm => if realm = k then (l.running k).tail else l.running realm }

/-- A closure is made in a scope. -/
def withClosure (l : Ledger) (r : FunctionRef) (x : Issue) : Ledger :=
  { l with made := fun ref => if ref = r then some x else l.made ref }

section Opened

variable {l : Ledger} {k : Nat} {slot id : ScopeId} {handle : Nat} {parent x : Issue}

theorem issued_opened_of_ne (other : id ≠ slot) :
    (l.opened k slot handle parent).issued k id = l.issued k id :=
  if_neg fun same => other same.2

theorem latest_opened_self : (l.opened k slot handle parent).latest k slot = l.next k slot := by
  simp [latest, opened, next]

theorem latest_opened_of_ne (other : id ≠ slot) :
    (l.opened k slot handle parent).latest k id = l.latest k id := by
  rw [latest, latest, issued_opened_of_ne other]

theorem running_opened :
    (l.opened k slot handle parent).running k = l.next k slot :: l.running k :=
  if_pos rfl

theorem above_opened_self : (l.opened k slot handle parent).above k slot = some parent :=
  if_pos ⟨rfl, rfl⟩

theorem above_opened_of_ne (other : id ≠ slot) :
    (l.opened k slot handle parent).above k id = l.above k id :=
  if_neg fun same => other same.2

theorem named_opened_self :
    (l.opened k slot handle parent).named k handle = some (l.next k slot) :=
  if_pos ⟨rfl, rfl⟩

theorem named_opened_of_ne {number : Nat} (other : number ≠ handle) :
    (l.opened k slot handle parent).named k number = l.named k number :=
  if_neg fun same => other same.2

/-- A number that has a name is another one than that of the new handle. -/
theorem named_opened (fresh : l.named k handle = none) {realm number : Nat}
    (noted : l.named realm number = some x) :
    (l.opened k slot handle parent).named realm number = some x := by
  refine (if_neg ?_).trans noted
  rintro ⟨rfl, rfl⟩
  rw [fresh] at noted
  cases noted

end Opened

end Ledger

/-- A scope was issued by the arena of the running interpreter, and its slot still holds its
record. -/
structure Issue.Denotes (x : Issue) (l : Ledger) (s : State) : Prop where
  latest : x = l.latest s.realm.id x.slot
  allocated : (s.scopes.record x.slot).phase ≠ .free

/-- The state in which the released records may be looked through when a scope ends. -/
def State.ending (s : State) (id : ScopeId) : State :=
  { s with scopes := s.scopes.retire id }

namespace Ledger

variable {l l' l'' : Ledger} {s t u : State} {x : Issue} {η θ : Handle}

/-- Wherever the references that are counted lead to a scope when an arena is looked through, it is
the one in which a closure was made or under which a record was opened. -/
def Surveys (l : Ledger) (s : State) (held : Holders) : Prop :=
  ∀ source id,
    .scope id ∈ s.scopes.counted (s.heap.pinned s.scopes)
      (s.scopes.counts (s.heap.pinned s.scopes) held) source →
    ∃ x : Issue, x.slot = id ∧ x.Denotes l s ∧
      ((∃ r, source = .function r ∧ l.made r = some x) ∨
        ∃ below, source = .scope below ∧ l.above s.realm.id below = some x)

/-- What the evaluator does to a state and to the ledger. Scopes are only referred to where they are
denoted, by a scope that is under way or by a closure. -/
inductive Step (l : Ledger) (s : State) : Ledger → State → Prop where
  /-- Closures stay where they are, and scopes as they are. -/
  | store {t : State} :
      s.heap.SameClosures t.heap → t.scopes = s.scopes → t.realm = s.realm → Step l s l t
  | edit {a : Arena} : s.scopes.Edit (fun _ => True) a → Step l s l { s with scopes := a }
  | capture (x : Issue) (name : String) (fn : Function) : x ∈ l.running s.realm.id → x.Denotes l s →
      Step l s (l.withClosure s.heap.nextFunction x) (s.withClosure name fn x.slot)
  | block (x : Issue) : x ∈ l.running s.realm.id → x.Denotes l s →
      Step l s (l.opened s.realm.id s.scopes.nextSlot s.scopes.made x) (s.opened .block x.slot)
  | call (x : Issue) (r : FunctionRef) (fn : Function) (η : Handle) :
      s.Calls r fn η → η.scope = x.slot → l.made r = some x → x.Denotes l s →
      Step l s (l.opened s.realm.id s.scopes.nextSlot s.scopes.made x) (s.called x.slot)
  | leave {t : State} (x : Issue) (rest : List Issue) :
      l.running s.realm.id = x :: rest → x.Denotes l s →
      (∀ values, s.Closes x.slot values t → l.Surveys (s.ending x.slot) { values := values }) →
      s.closed x.slot = some t → Step l s (l.closed s.realm.id) t

/-- What the evaluator does from one state to another. -/
def Path (l : Ledger) (s : State) (l' : Ledger) (t : State) : Prop :=
  Relation.ReflTransGen (fun p q : Ledger × State => p.1.Step p.2 q.1 q.2) (l, s) (l', t)

/-- What a ledger says of handles: those that records know are of the latest issues of their slots,
and those of closures are of the scopes that these were made in. -/
structure Charts (l : Ledger) (s : State) : Prop where
  named : ∀ id η, (s.scopes.record id).handle? = some η →
    l.named s.realm.id η.number = some (l.latest s.realm.id id)
  fresh : ∀ number, s.scopes.made ≤ number → l.named s.realm.id number = none
  above : ∀ id η θ, (s.scopes.record id).handle? = some η → η.parent? = some θ →
    ∃ x, l.above s.realm.id id = some x ∧ l.named s.realm.id θ.number = some x ∧ x.slot = θ.scope
  made : ∀ r fn η k, s.heap.ClosureAt r fn η k →
    ∃ x, l.made r = some x ∧ l.named k η.number = some x ∧ x.realm = k ∧ x.slot = η.scope

/-- The ledger is right about handles and about what is under way. -/
structure Coherent (l : Ledger) (s : State) : Prop extends Charts l s where
  /-- What scopes under way were given is theirs. -/
  running : ∀ x ∈ l.running s.realm.id, x.Denotes l s ∧ (s.scopes.record x.slot).phase = .running
  every : ∀ id, (s.scopes.record id).phase = .running →
    l.latest s.realm.id id ∈ l.running s.realm.id

/-- What can be referred to is what was meant. -/
structure Means (l : Ledger) (s : State) : Prop where
  /-- On the way up from a scope that runs, every record is right under the one that it was opened
  under. -/
  ways : ∀ env, (s.scopes.record env).phase = .running → ∃ path, s.scopes.Climbs env path ∧
    ∀ id ∈ path, ∀ parent, (s.scopes.record id).parent = some parent →
      ∃ x, l.above s.realm.id id = some x ∧ x.slot = parent ∧ x.Denotes l s
  /-- A closure that was not lost refers to the scope that it was made in. -/
  closures : ∀ r fn η, s.heap.ClosureAt r fn η s.realm.id → r ∉ s.memory.lost →
    ∃ x, l.made r = some x ∧ x.slot = η.scope ∧ x.Denotes l s
  /-- So it is for whatever is found by looking through the arena when a scope under way ends. -/
  surveys : ∀ id values t, id ≠ Arena.root → (s.scopes.record id).phase = .running →
    s.Closes id values t → l.Surveys (s.ending id) { values := values }

/-! ### What a path leaves alone -/

namespace Path

theorem refl (l : Ledger) (s : State) : l.Path s l s :=
  Relation.ReflTransGen.refl

theorem trans (first : l.Path s l' t) (second : l'.Path t l'' u) : l.Path s l'' u :=
  Relation.ReflTransGen.trans first second

theorem single (step : l.Step s l' t) : l.Path s l' t :=
  Relation.ReflTransGen.single step

theorem tail (path : l.Path s l' t) (step : l'.Step t l'' u) : l.Path s l'' u :=
  Relation.ReflTransGen.tail path step

end Path

/-- What does not change while the evaluator runs: other realms, and closures. -/
structure Spares (l : Ledger) (s : State) (l' : Ledger) (t : State) : Prop where
  realm : t.realm = s.realm
  issued : ∀ k, k ≠ s.realm.id → l'.issued k = l.issued k
  running : ∀ k, k ≠ s.realm.id → l'.running k = l.running k
  above : ∀ k, k ≠ s.realm.id → l'.above k = l.above k
  named : ∀ k, k ≠ s.realm.id → l'.named k = l.named k

namespace Spares

theorem refl (l : Ledger) (s : State) : l.Spares s l s :=
  ⟨rfl, fun _ _ => rfl, fun _ _ => rfl, fun _ _ => rfl, fun _ _ => rfl⟩

theorem trans (first : l.Spares s l' t) (second : l'.Spares t l'' u) : l.Spares s l'' u := by
  have other {k : Nat} (other : k ≠ s.realm.id) : k ≠ t.realm.id := by rwa [first.realm]
  refine ⟨second.realm.trans first.realm, fun k apart => ?_, fun k apart => ?_, fun k apart => ?_,
    fun k apart => ?_⟩
  · rw [second.issued k (other apart), first.issued k apart]
  · rw [second.running k (other apart), first.running k apart]
  · rw [second.above k (other apart), first.above k apart]
  · rw [second.named k (other apart), first.named k apart]

theorem opened (l : Ledger) (slot : ScopeId) (handle : Nat) (parent : Issue)
    (realm : t.realm = s.realm) :
    l.Spares s (l.opened s.realm.id slot handle parent) t := by
  refine ⟨realm, fun k apart => ?_, fun k apart => if_neg apart, fun k apart => ?_,
    fun k apart => ?_⟩
  all_goals
    funext id
    exact if_neg fun same => apart same.1

end Spares

theorem Step.spares (step : l.Step s l' t) : l.Spares s l' t := by
  cases step with
  | store same _ realm =>
    exact ⟨realm, fun _ _ => rfl, fun _ _ => rfl, fun _ _ => rfl, fun _ _ => rfl⟩
  | edit | capture => exact ⟨rfl, fun _ _ => rfl, fun _ _ => rfl, fun _ _ => rfl, fun _ _ => rfl⟩
  | block | call => exact .opened l _ _ _ rfl
  | leave x rest _ _ _ closed =>
    exact
      ⟨by rw [State.closed_eq closed], fun _ _ => rfl, fun _ apart => if_neg apart, fun _ _ => rfl,
      fun _ _ => rfl⟩

theorem Path.spares (path : l.Path s l' t) : l.Spares s l' t := by
  suffices ∀ p : Ledger × State, Relation.ReflTransGen _ (l, s) p →
    l.Spares s p.1 p.2 from this _ path
  intro p path
  induction path with
  | refl => exact .refl l s
  | tail _ step ih => exact ih.trans step.spares

/-! ### What handles tell -/

/-- A scope that still has its record is still denoted unless its slot was issued again. -/
theorem denotes_later (denotes : x.Denotes l s) (realm : t.realm = s.realm)
    (issued : l'.issued s.realm.id x.slot = l.issued s.realm.id x.slot)
    (allocated : (t.scopes.record x.slot).phase ≠ .free) : x.Denotes l' t := by
  refine ⟨?_, allocated⟩
  rw [Ledger.latest, realm, issued]
  exact denotes.latest

namespace Charts

/-- What a handle was made for is there as long as the record of its scope knows it. -/
theorem denotes (charts : l.Charts s) (current : s.scopes.IsCurrent η)
    (noted : l.named s.realm.id η.number = some x) : x.Denotes l s := by
  have same := charts.named η.scope η current
  rw [noted] at same
  cases same
  exact ⟨rfl, current.allocated⟩

/-- Where only handles are let go of, and none is made, a ledger stays right about handles. -/
theorem of_handles (charts : l.Charts s) (realm : t.realm = s.realm)
    (made : t.scopes.made = s.scopes.made)
    (handle : ∀ id η, (t.scopes.record id).handle? = some η → (s.scopes.record id).handle? = some η)
    (same : s.heap.SameClosures t.heap) : l.Charts t := by
  refine ⟨fun id η known => ?_, fun number above => ?_, fun id η θ known up => ?_,
    fun r fn η k there => charts.made r fn η k ((same r fn η k).1 there)⟩
  · rw [realm]
    exact charts.named id η (handle id η known)
  · rw [realm]
    exact charts.fresh number (made ▸ above)
  · rw [realm]
    exact charts.above id η θ (handle id η known) up

variable {held : Holders}

/-- The record above that of a handle that is there is the one that the lower one was opened
under. -/
theorem parent (charts : l.Charts s) {refs : List Handle} (chartered : s.scopes.Chartered)
    (linked : s.scopes.Linked refs) {id parent : ScopeId}
    (known : (s.scopes.record id).handle? = some η) (alive : η.Alive refs)
    (up : (s.scopes.record id).parent = some parent) :
    ∃ x, l.above s.realm.id id = some x ∧ x.slot = parent ∧ x.Denotes l s := by
  rw [chartered.parent known] at up
  obtain ⟨θ, higher, rfl⟩ := Option.map_eq_some_iff.1 up
  obtain ⟨x, above, noted, slot⟩ := charts.above id η θ known higher
  exact ⟨x, above, slot, charts.denotes (linked η (chartered.isCurrent known) alive θ higher) noted⟩

/-- What is found by looking through a safe arena is what was meant. -/
theorem surveys (charts : l.Charts s) (safe : Safe s.scopes s.heap held)
    (homes : ∀ r fn η k, s.heap.ClosureAt r fn η k → η.realm? = some k)
    (realm : s.scopes.realm = s.realm.id) : l.Surveys s held := by
  intro source id edge
  rw [Arena.pinned_eq safe.pinned] at edge
  cases source with
  | scope below =>
    rw [Arena.counted] at edge
    split at edge
    · rename_i released
      rcases List.mem_append.1 edge with edge | edge
      · split at edge
        · rename_i counted
          obtain ⟨parent, up, same⟩ := Option.map_eq_some_iff.1 (Option.mem_toList.1 edge)
          cases same
          have allocated : (s.scopes.record below).phase ≠ .free := by
            simp [(safe.tidy.released below).1 released]
          obtain ⟨η, known⟩ := Record.allocated_iff.1 allocated
          have alive := (Arena.strong_pos_iff known).1 counted
          obtain ⟨x, above, slot, denotes⟩ :=
            charts.parent safe.chartered safe.linked known alive up
          exact ⟨x, slot, denotes, .inr ⟨below, rfl, above⟩⟩
        · cases edge
      · exact absurd rfl (Holding.ne_scope_of_ofValues edge id)
    · cases edge
  | function r =>
    rw [Arena.counted] at edge
    cases found : s.heap.function? r with
    | none => simp [found] at edge
    | some f =>
      simp only [found] at edge
      rcases List.mem_append.1 edge with edge | edge
      · exact absurd rfl (Holding.ne_scope_of_ofValues edge id)
      · split at edge
        · rename_i current
          obtain ⟨g, η, found', made, current⟩ := Arena.current_iff.1 current
          cases found.symm.trans found'
          obtain ⟨fn, k, closure⟩ := Heap.closureAt_of_handle found made
          obtain rfl : id = η.scope := by simpa [Heap.scopeOf?, made] using edge
          obtain ⟨x, noted, named, -, slot⟩ := charts.made r fn η k closure
          -- the record knows the handle, so that this is one of the arena
          have own : some k = some s.realm.id := by
            rw [← homes r fn η k closure, safe.chartered.realm current, realm]
          cases own
          exact ⟨x, slot, charts.denotes current named, .inl ⟨r, rfl, noted⟩⟩
        · cases edge
  | array r => exact absurd edge (Heap.scope_not_mem_contents (.array r) id)
  | object r => exact absurd edge (Heap.scope_not_mem_contents (.object r) id)

end Charts

/-- In an orderly state whatever is referred to is what was meant. -/
theorem Charts.means (charts : l.Charts s) (orderly : s.Orderly) : l.Means s where
  ways env running := by
    obtain ⟨η, known, alive⟩ := State.Orderly.running_handle running
    obtain ⟨path, climbs, there⟩ := orderly.linked.climbs orderly.chartered known alive
    refine ⟨path, climbs, fun id on parent up => ?_⟩
    obtain ⟨θ, known, alive⟩ := there id on
    exact charts.parent orderly.chartered orderly.linked known alive up
  closures r fn η there kept := by
    obtain ⟨x, noted, named, -, slot⟩ := charts.made r fn η _ there
    exact ⟨x, noted, slot, charts.denotes (orderly.current r fn η there kept) named⟩
  surveys id values t root running closes := by
    have handle := (Arena.Clears.retire s.scopes id).handle
    have ending : l.Charts (s.ending id) :=
      charts.of_handles rfl (Arena.made_retire ..) handle (.refl _)
    exact ending.surveys (orderly.safe_retire root running closes) orderly.homes
      ((Arena.realm_retire ..).trans orderly.realm)

/-! ### Single steps -/

namespace Coherent

/-- Coherence is about scopes and closures only. -/
theorem store (coherent : l.Coherent s) (same : s.heap.SameClosures t.heap)
    (scopes : t.scopes = s.scopes)
    (realm : t.realm = s.realm) : l.Coherent t where
  toCharts := coherent.toCharts.of_handles realm (by rw [scopes]) (fun _ _ => scopes ▸ id) same
  running y member := by
    rw [realm] at member
    obtain ⟨denotes, runs⟩ := coherent.running y member
    rw [scopes]
    exact ⟨denotes_later denotes realm rfl (scopes ▸ denotes.allocated), runs⟩
  every id runs := by
    rw [scopes] at runs
    rw [realm]
    exact coherent.every id runs

theorem edit {given : Value → Prop} {a : Arena} (coherent : l.Coherent s)
    (edit : s.scopes.Edit given a) : l.Coherent { s with scopes := a } := by
  obtain ⟨id, name, b, -, rfl⟩ := edit.bind_eq
  refine ⟨coherent.toCharts.of_handles rfl rfl (fun x η known => ?_) (.refl _), fun y member => ?_,
    fun x runs => ?_⟩
  · rwa [Arena.handle?_bind] at known
  · obtain ⟨denotes, runs⟩ := coherent.running y member
    rw [Arena.phase_bind]
    exact ⟨denotes_later denotes rfl rfl (by rw [Arena.phase_bind]; exact denotes.allocated), runs⟩
  · rw [Arena.phase_bind] at runs
    exact coherent.every x runs

/-- A scope under way has its issue. -/
theorem running_issue {env : ScopeId} (coherent : l.Coherent s)
    (running : (s.scopes.record env).phase = .running) :
    ∃ x ∈ l.running s.realm.id, x.slot = env ∧ x.Denotes l s := by
  have member := coherent.every env running
  exact ⟨_, member, rfl, (coherent.running _ member).1⟩

theorem capture (coherent : l.Coherent s) (chartered : s.scopes.Chartered)
    (member : x ∈ l.running s.realm.id) (name : String) (fn : Function) :
    (l.withClosure s.heap.nextFunction x).Coherent (s.withClosure name fn x.slot) := by
  obtain ⟨denotes, runs⟩ := coherent.running x member
  obtain ⟨η, known, alive, same⟩ := State.Orderly.withClosure_eq runs name fn
  rw [same]
  have later {y : Issue} {h : Heap} (denotes : y.Denotes l s) :
      y.Denotes (l.withClosure s.heap.nextFunction x) { s with heap := h } :=
    denotes_later denotes rfl rfl denotes.allocated
  refine ⟨⟨coherent.named, coherent.fresh, coherent.above, fun r fn' θ k there => ?_⟩,
    fun y member => ⟨later (coherent.running y member).1, (coherent.running y member).2⟩,
      coherent.every⟩
  rcases Heap.closureAt_newFunction.1 there with there | ⟨rfl, made⟩
  · have old : r ≠ s.heap.nextFunction := by
      rintro rfl
      exact Heap.not_closureAt_nextFunction there
    obtain ⟨y, noted, rest⟩ := coherent.made r fn' θ k there
    exact ⟨y, (if_neg old).trans noted, rest⟩
  · cases made
    refine ⟨x, if_pos rfl, ?_, congrArg Issue.realm denotes.latest, (chartered.scope known).symm⟩
    rw [denotes.latest]
    exact coherent.named x.slot η known

section Opened

variable {kind : ScopeKind}

/-- Issues of slots that are not free stay the latest when a scope opens. -/
theorem denotes_opened (tidy : s.scopes.Tidy) (parent y : Issue) (denotes : y.Denotes l s)
    (scopes : t.scopes = (s.scopes.openUnder kind parent.slot η).2) (realm : t.realm = s.realm) :
    y.Denotes (l.opened s.realm.id s.scopes.nextSlot s.scopes.made parent) t := by
  have apart : y.slot ≠ s.scopes.nextSlot := fun same =>
    denotes.allocated (same ▸ Arena.nextSlot_free tidy)
  refine denotes_later denotes realm (issued_opened_of_ne apart) ?_
  rw [scopes, Arena.record_openUnder tidy, if_neg apart]
  exact denotes.allocated

/-- A slot is only issued where it is free, and its handle has a number of its own. -/
theorem charts_opened (charts : l.Charts s) (tidy : s.scopes.Tidy) (chartered : s.scopes.Chartered)
    (known : (s.scopes.record x.slot).handle? = some η) (denotes : x.Denotes l s)
    (scopes : t.scopes = (s.scopes.openUnder kind x.slot η).2) (heap : t.heap = s.heap)
    (realm : t.realm = s.realm) :
    (l.opened s.realm.id s.scopes.nextSlot s.scopes.made x).Charts t := by
  have record (id : ScopeId) : t.scopes.record id =
      if id = s.scopes.nextSlot then Arena.freshRecord kind x.slot (s.scopes.freshHandle η)
      else s.scopes.record id := by
    rw [scopes, Arena.record_openUnder tidy]
  have fresh := charts.fresh s.scopes.made (Nat.le_refl _)
  refine ⟨fun id θ there => ?_, fun number above => ?_, fun id θ ξ there up => ?_,
    fun r fn θ k there => ?_⟩
  · rw [realm]
    rw [record] at there
    by_cases new : id = s.scopes.nextSlot
    · subst new
      rw [if_pos rfl] at there
      cases there
      rw [latest_opened_self]
      exact named_opened_self
    · rw [if_neg new] at there
      rw [latest_opened_of_ne new]
      exact named_opened fresh (charts.named id θ there)
  · rw [scopes, Arena.made_openUnder] at above
    rw [realm, named_opened_of_ne (by omega)]
    exact charts.fresh number (by omega)
  · rw [realm]
    rw [record] at there
    by_cases new : id = s.scopes.nextSlot
    · subst new
      rw [if_pos rfl] at there
      cases there
      cases up
      refine ⟨x, above_opened_self, named_opened fresh ?_, (chartered.scope known).symm⟩
      rw [denotes.latest]
      exact charts.named x.slot η known
    · rw [if_neg new] at there
      obtain ⟨y, noted, name, slot⟩ := charts.above id θ ξ there up
      exact ⟨y, (above_opened_of_ne new).trans noted, named_opened fresh name, slot⟩
  · rw [heap] at there
    obtain ⟨y, noted, name, rest⟩ := charts.made r fn θ k there
    exact ⟨y, noted, named_opened fresh name, rest⟩

theorem opened (coherent : l.Coherent s) (tidy : s.scopes.Tidy) (chartered : s.scopes.Chartered)
    (known : (s.scopes.record x.slot).handle? = some η) (denotes : x.Denotes l s)
    (scopes : t.scopes = (s.scopes.openUnder kind x.slot η).2) (heap : t.heap = s.heap)
    (realm : t.realm = s.realm) :
    (l.opened s.realm.id s.scopes.nextSlot s.scopes.made x).Coherent t := by
  have record (id : ScopeId) : t.scopes.record id =
      if id = s.scopes.nextSlot then Arena.freshRecord kind x.slot (s.scopes.freshHandle η)
      else s.scopes.record id := by
    rw [scopes, Arena.record_openUnder tidy]
  refine ⟨charts_opened coherent.toCharts tidy chartered known denotes scopes heap realm,
    fun y member => ?_, fun id runs => ?_⟩
  · rw [realm, running_opened] at member
    rcases List.mem_cons.1 member with rfl | member
    · have there : t.scopes.record (l.next s.realm.id s.scopes.nextSlot).slot =
          Arena.freshRecord kind x.slot (s.scopes.freshHandle η) := (record _).trans (if_pos rfl)
      rw [there]
      refine ⟨⟨?_, by rw [there]; simp⟩, rfl⟩
      rw [realm]
      exact latest_opened_self.symm
    · obtain ⟨denotes', runs⟩ := coherent.running y member
      refine ⟨denotes_opened tidy x y denotes' scopes realm, ?_⟩
      have apart : y.slot ≠ s.scopes.nextSlot := fun same =>
        denotes'.allocated (same ▸ Arena.nextSlot_free tidy)
      rw [record, if_neg apart]
      exact runs
  · rw [record] at runs
    rw [realm, running_opened]
    by_cases new : id = s.scopes.nextSlot
    · exact List.mem_cons.2 (.inl (new ▸ latest_opened_self))
    · rw [if_neg new] at runs
      rw [latest_opened_of_ne new]
      exact List.mem_cons_of_mem _ (coherent.every id runs)

end Opened

/-- What stays behind when a scope ends is still what was meant. -/
theorem leave {rest : List Issue} (coherent : l.Coherent t)
    (running : l.running t.realm.id = x :: rest)
    (clears : t.scopes.Clears u.scopes) (heap : u.heap = t.heap) (realm : u.realm = t.realm)
    (stay : ∀ y ∈ rest, (u.scopes.record y.slot).phase = .running)
    (runs : ∀ id, (u.scopes.record id).phase = .running →
      (t.scopes.record id).phase = .running ∧ id ≠ x.slot) : (l.closed t.realm.id).Coherent u := by
  have left : (l.closed t.realm.id).running t.realm.id = rest := by simp [Ledger.closed, running]
  have charts : (l.closed t.realm.id).Charts t :=
    ⟨coherent.named, coherent.fresh, coherent.above, coherent.made⟩
  refine ⟨charts.of_handles realm clears.made clears.handle (heap ▸ .refl _), fun y member => ?_,
    fun id here => ?_⟩
  · rw [realm, left] at member
    have stays := stay y member
    have denotes := (coherent.running y (running ▸ List.mem_cons_of_mem _ member)).1
    exact ⟨denotes_later denotes realm rfl (by simp [stays]), stays⟩
  · obtain ⟨before, other⟩ := runs id here
    have member := coherent.every id before
    rw [running] at member
    rw [realm, left]
    rcases List.mem_cons.1 member with first | member
    · exact absurd (congrArg Issue.slot first) other
    · exact member

end Coherent

/-! ### Runs -/

/-- A later state in which the same scopes are under way, and in which their slots have not been
issued again. -/
structure Resumes (l : Ledger) (s : State) (l' : Ledger) (t : State) : Prop where
  path : l.Path s l' t
  coherent : l'.Coherent t
  running : l'.running s.realm.id = l.running s.realm.id
  issued : ∀ id, (s.scopes.record id).phase = .running →
    l'.issued s.realm.id id = l.issued s.realm.id id

end Ledger

/-- How a scope can open in a state, so that what it opens under is what was meant. -/
structure State.Opens (s : State) (kind : ScopeKind) (parent : ScopeId) (η : Handle) (o : State) :
    Prop where
  known : (s.scopes.record parent).handle? = some η
  step : ∀ l : Ledger, l.Coherent s → ∃ x, x.slot = parent ∧ x.Denotes l s ∧
    l.Step s (l.opened s.realm.id s.scopes.nextSlot s.scopes.made x) o
  scopes : o.scopes = (s.scopes.openUnder kind parent η).2
  heap : o.heap = s.heap
  realm : o.realm = s.realm

namespace State.Opens

variable {s o : State} {kind : ScopeKind} {η : Handle}

theorem block {env : ScopeId} (running : (s.scopes.record env).phase = .running) :
    ∃ η, s.Opens .block env η (s.opened .block env) := by
  obtain ⟨η, known, alive⟩ := State.Orderly.running_handle running
  have same := State.Orderly.opened_eq known alive .block
  refine ⟨η, known, fun l coherent => ?_, congrArg State.scopes same, rfl, rfl⟩
  obtain ⟨x, member, rfl, denotes⟩ := coherent.running_issue running
  exact ⟨x, rfl, denotes, .block x member denotes⟩

theorem call {r : FunctionRef} {fn : Function} (orderly : s.Orderly) (calls : s.Calls r fn η) :
    s.Opens .function η.scope η (s.called η.scope) := by
  obtain ⟨known, alive⟩ := orderly.closure_handle calls
  have same :=
    State.Orderly.opened_eq (s := { s with depth := s.depth + 1 }) known alive .function
  refine ⟨known, fun l coherent => ?_, congrArg State.scopes same, rfl, rfl⟩
  obtain ⟨x, noted, slot, denotes⟩ :=
    (coherent.toCharts.means orderly).closures r fn η calls.there calls.kept
  have step := Ledger.Step.call x r fn η calls slot.symm noted denotes
  exact ⟨x, slot, denotes, slot ▸ step⟩

theorem coherent {l : Ledger} {x : Issue} (opens : s.Opens kind x.slot η o) (orderly : s.Orderly)
    (coherent : l.Coherent s) (denotes : x.Denotes l s) :
    (l.opened s.realm.id s.scopes.nextSlot s.scopes.made x).Coherent o :=
  coherent.opened orderly.tidy orderly.chartered opens.known denotes opens.scopes opens.heap
    opens.realm

end State.Opens

/-- Whatever the ledger of a state, it can be kept up to a later state. -/
def State.Traced (s t : State) : Prop :=
  ∀ l : Ledger, l.Coherent s → ∃ l', l.Resumes s l' t

namespace State.Traced

variable {s t u o v : State} {η : Handle}

/-- Steps that issue nothing. -/
theorem of_path (traced : ∀ l : Ledger, l.Coherent s → ∃ l', l.Path s l' t ∧ l'.Coherent t ∧
    l'.running = l.running ∧ l'.issued = l.issued) : s.Traced t := by
  intro l coherent
  obtain ⟨l', path, after, running, issued⟩ := traced l coherent
  exact ⟨l', path, after, by rw [running], fun _ _ => by rw [issued]⟩

theorem store (same : s.heap.SameClosures t.heap) (scopes : t.scopes = s.scopes)
    (realm : t.realm = s.realm) : s.Traced t :=
  .of_path fun l coherent =>
    ⟨l, .single (.store same scopes realm), coherent.store same scopes realm, rfl, rfl⟩

theorem refl (s : State) : s.Traced s :=
  .store (.refl _) rfl rfl

theorem edit {given : Value → Prop} {a : Arena} (edit : s.scopes.Edit given a) :
    s.Traced { s with scopes := a } :=
  .of_path fun l coherent =>
    ⟨l, .single (.edit (edit.mono fun _ _ => trivial)), coherent.edit edit, rfl, rfl⟩

theorem closure {env : ScopeId} (chartered : s.scopes.Chartered)
    (running : (s.scopes.record env).phase = .running) (name : String) (fn : Function) :
    s.Traced (s.withClosure name fn env) := by
  refine .of_path fun l coherent => ?_
  obtain ⟨x, member, rfl, denotes⟩ := coherent.running_issue running
  exact ⟨_, .single (.capture x name fn member denotes), coherent.capture chartered member name fn,
    rfl, rfl⟩

theorem trans (settled : s.Settled t) (first : s.Traced t) (second : t.Traced u) : s.Traced u := by
  intro l coherent
  obtain ⟨l', path, between, running, issued⟩ := first l coherent
  obtain ⟨l'', path', after, running', issued'⟩ := second l' between
  rw [settled.realm] at running' issued'
  refine ⟨l'', path.trans path', after, running'.trans running, fun id runs => ?_⟩
  rw [issued' id (settled.grown.running runs), issued id runs]

/-- A scope opens, all from `o` to `t` goes on in it, and it ends. -/
theorem scope {kind : ScopeKind} {parent : ScopeId} (orderly : s.Orderly)
    (opens : s.Opens kind parent η o) (traced : o.Traced t) (settled : o.Settled t)
    (between : t.Orderly) (closed : t.closed s.scopes.nextSlot = some v)
    (after : u = { v with depth := s.depth }) (back : s.Settled u) : s.Traced u := by
  intro l coherent
  obtain ⟨x, rfl, denotes, step⟩ := opens.step l coherent
  have grown : s.scopes.Grown o.scopes := opens.scopes ▸ .openUnder orderly.tidy kind x.slot η
  have root := Arena.nextSlot_ne_root orderly.tidy
  have apart {id : ScopeId} (runs : (s.scopes.record id).phase = .running) :
      id ≠ s.scopes.nextSlot := by
    rintro rfl
    rw [Arena.nextSlot_free orderly.tidy] at runs
    cases runs
  obtain ⟨l', path, here, running, issued⟩ :=
    traced _ (opens.coherent orderly coherent denotes)
  let new : Issue := l.next s.realm.id s.scopes.nextSlot
  have realms : t.realm = s.realm := by rw [settled.realm, opens.realm]
  rw [opens.realm] at running issued
  have mine : l'.running t.realm.id = new :: l.running s.realm.id := by
    rw [realms, running]
    exact Ledger.running_opened
  obtain ⟨last, runs⟩ := here.running new (mine ▸ List.mem_cons_self)
  have surveys (values : List Value) (closes : t.Closes new.slot values v) :
      l'.Surveys (t.ending new.slot) { values := values } :=
    (here.means between).surveys new.slot values v root runs closes
  have ends : l'.Path t (l'.closed t.realm.id) u := by
    refine .tail (.single (.leave new _ mine last surveys closed)) (.store ?_ ?_ ?_)
    all_goals rw [after]
    exact .refl _
  have left : (l'.closed t.realm.id).Coherent u := by
    have clears : t.scopes.Clears v.scopes := State.clears_closed closed
    have realm' : v.realm = t.realm := by rw [State.closed_eq closed]
    have heap' : v.heap = t.heap := by rw [State.closed_eq closed]
    refine here.leave mine (after ▸ clears) (after ▸ heap') (after ▸ realm') (fun y member => ?_)
      fun id runs => ?_
    · exact back.grown.running (coherent.running y member).2
    · have before := back.running id runs
      exact ⟨settled.grown.running (grown.running before), apart before⟩
  refine ⟨l'.closed t.realm.id, (Ledger.Path.single step).trans (path.trans ends), left, ?_,
    fun id runs => ?_⟩
  · have now := mine
    rw [realms] at now
    simp [Ledger.closed, now, realms]
  · show l'.issued s.realm.id id = _
    rw [issued id (grown.running runs)]
    exact Ledger.issued_opened_of_ne (apart runs)

end State.Traced

end Scriptlet
