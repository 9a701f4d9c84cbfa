import Scriptlet.Proofs.Scope.Held

/-!
What changes leave of what is held.

Bindings, containers, holders and new scopes: whatever is held after a change was held before, or is
new. Main statements: `Safe.extend`, that such a change keeps an arena safe, and what it comes to
for each kind of change.
-/

namespace Scriptlet

variable {a b : Arena} {h h' : Heap} {held held' : Holders}

/-! ### What is held after a change -/

/-- What is held after a change was held before it, or is new. -/
theorem Held.within (New : Holding → Prop)
    (roots : ∀ x, IsRoot b held' x → Held a h held x ∨ New x)
    (steps : ∀ x y, Held a h held x → Refers b h' x y → Held a h held y ∨ New y)
    (fresh : ∀ x y, New x → Refers b h' x y → Held a h held y ∨ New y)
    {x : Holding} (holds : Held b h' held' x) : Held a h held x ∨ New x := by
  induction holds with
  | root isRoot => exact roots _ isRoot
  | @step x y _ refers ih =>
    rcases ih with before | new
    · exact steps x y before refers
    · exact fresh x y new refers

/-- Nothing new is held if nothing new is held directly or referred to by what is held. -/
theorem Held.fewer (roots : ∀ x, IsRoot b held' x → Held a h held x)
    (steps : ∀ x y, Held a h held x → Refers b h' x y → Held a h held y)
    {x : Holding} (holds : Held b h' held' x) : Held a h held x := by
  have within := holds.within (fun _ => False) (fun x isRoot => .inl (roots x isRoot))
    (fun x y before refers => .inl (steps x y before refers)) (fun _ _ absurd => absurd.elim)
  exact within.resolve_right id

/-- What is held directly after a change that ends no run and takes no new holder. -/
theorem IsRoot.holds
    (phases : ∀ id, (b.record id).phase = .running → (a.record id).phase = .running)
    (scopes : ∀ id ∈ held'.scopes, Held a h held (.scope id))
    (values : ∀ v ∈ held'.values, ∀ x, Holding.ofValue? v = some x → Held a h held x)
    {x : Holding} (isRoot : IsRoot b held' x) : Held a h held x := by
  cases isRoot with
  | running running => exact .root (.running (phases _ running))
  | handle member => exact scopes _ member
  | value member refers => exact values _ member _ refers

/-- Setting a binding to a value that is held makes nothing new held. -/
theorem held_of_bind {id : ScopeId} {name : String} {set : Binding}
    (owned : ∀ x, Holding.ofValue? set.value = some x → Held a h held x)
    {x : Holding} (holds : Held (a.bind id name set) h held x) : Held a h held x := by
  refine holds.fewer (fun x isRoot => ?_) fun x y before refers => ?_
  · exact isRoot.holds (fun id running => by rwa [Arena.phase_bind] at running)
      (fun id member => .root (.handle member))
        (fun v member x refers => .root (.value member refers))
  · by_cases target : x = .scope id ∧ id.index < a.records.size
    · obtain ⟨rfl, inside⟩ := target
      cases refers with
      | parent above => exact before.parent (by rwa [Arena.parent_bind] at above)
      | binding member refers =>
        rw [Arena.bindings_bind_self inside] at member
        rcases Table.of_mem_values_insert member with rfl | old
        · exact owned _ refers
        · exact .step before (.binding old refers)
    · refine .step before (refers.of_unchanged (Arena.realm_bind ..) (unchanged_of_records ?_))
      rintro x rfl
      have apart : ¬(x = id ∧ id.index < a.records.size) :=
        fun both => target ⟨by rw [both.1], both.2⟩
      rw [Arena.bind, Arena.record_modifyRecord, if_neg apart]
      exact ⟨rfl, rfl⟩

/-- What is held once a scope has ended was held before. -/
theorem held_of_retire (id : ScopeId) {x : Holding} (holds : Held (a.retire id) h held x) :
    Held a h held x := by
  refine holds.fewer (fun x isRoot => ?_) fun x y before refers => .step before ?_
  · exact isRoot.holds (fun _ => Arena.running_of_retire) (fun id member => .root (.handle member))
      fun v member x refers => .root (.value member refers)
  · exact refers.of_unchanged (Arena.realm_retire a id)
      (unchanged_of_records fun x _ => ⟨Arena.parent_retire .., Arena.bindings_retire ..⟩)

/-- A scope that is opened under a held one is the only thing that is new. -/
theorem held_of_open (safe : Safe a h held) {kind : ScopeKind} {parent : ScopeId} {η : Handle}
    (under : Held a h held (.scope parent)) {x : Holding}
    (holds : Held (a.openUnder kind parent η).2 h held x) :
    Held a h held x ∨ x = .scope a.nextSlot := by
  refine holds.within (· = .scope a.nextSlot) (fun x isRoot => ?_) (fun x y before refers => ?_)
    fun x y new refers => ?_
  · cases isRoot with
    | @running id running =>
      rw [Arena.record_openUnder safe.tidy] at running
      split at running
      · rename_i same
        exact .inr (congrArg _ same)
      · exact .inl (.root (.running running))
    | handle member => exact .inl (.root (.handle member))
    | value member refers => exact .inl (.root (.value member refers))
  · refine .inl
      (.step before (refers.of_unchanged (Arena.realm_openUnder ..) (unchanged_of_records ?_)))
    rintro id rfl
    have apart : id ≠ a.nextSlot :=
      fun same => safe.allocated before (same ▸ Arena.nextSlot_free safe.tidy)
    rw [Arena.record_openUnder safe.tidy, if_neg apart]
    exact ⟨rfl, rfl⟩
  · subst new
    have here : (a.openUnder kind parent η).2.record a.nextSlot =
        Arena.freshRecord kind parent (a.freshHandle η) := by
      rw [Arena.record_openUnder safe.tidy, if_pos rfl]
    cases refers with
    | parent above =>
      rw [here] at above
      cases above
      exact .inl under
    | binding member refers =>
      rw [here] at member
      exact absurd member List.not_mem_nil

/-- Filling a container with what is held makes nothing new held. -/
theorem held_of_fill {touched : Holding} (others : ∀ x, x ≠ touched → Unchanged a a h h' x)
    (content : ∀ y, Held a h held touched → Refers a h' touched y → Held a h held y)
    {x : Holding} (holds : Held a h' held x) : Held a h held x := by
  refine holds.fewer (fun x isRoot => ?_) fun x y before refers => ?_
  · exact isRoot.holds (fun _ running => running) (fun id member => .root (.handle member))
      fun v member x refers => .root (.value member refers)
  · by_cases same : x = touched
    · subst same
      exact content y before refers
    · exact .step before (refers.of_unchanged rfl (others x same))

/-- A container that is made of what is held and kept is the only thing that is new. -/
theorem held_of_make {made : Holding} {v : Value} (delivered : Holding.ofValue? v = some made)
    (others : ∀ x, x ≠ made → Unchanged a a h h' x)
    (content : ∀ y, Refers a h' made y → Held a h held y)
    {x : Holding} (holds : Held a h' { held with values := v :: held.values } x) :
    Held a h held x ∨ x = made := by
  refine holds.within (· = made) (fun x isRoot => ?_) (fun x y before refers => ?_)
    fun x y new refers => ?_
  · cases isRoot with
    | running running => exact .inl (.root (.running running))
    | handle member => exact .inl (.root (.handle member))
    | value member refers =>
      rcases List.mem_cons.1 member with rfl | old
      · exact .inr (Option.some.inj (refers.symm.trans delivered))
      · exact .inl (.root (.value old refers))
  · by_cases same : x = made
    · exact .inl (content y (same ▸ refers))
    · exact .inl (.step before (refers.of_unchanged rfl (others x same)))
  · exact .inl (content y (new ▸ refers))

/-! ### What a change keeps safe -/

/-- A change that leaves handles where they are. What is held or referred to afterwards was so
before, or is new; a new closure is made in a held scope. -/
structure Extends (New : Holding → Prop) (a : Arena) (h : Heap) (held : Holders) (b : Arena)
    (h' : Heap)
    (held' : Holders) : Prop where
  realm : b.realm = a.realm
  handle : ∀ id, (b.record id).handle? = (a.record id).handle?
  running : ∀ id, (b.record id).phase = .running → (a.record id).phase = .running
  within : ∀ x, Held b h' held' x → Held a h held x ∨ New x
  there : ∀ x ∈ h'.holdings, x ∈ h.holdings ∨ New x
  outer : ∀ x ∈ b.outer held'.values, x ∈ a.outer held.values ∨ Held a h held x ∨ New x
  contents : ∀ x y, y ∈ h'.contents x → (¬New x ∧ y ∈ h.contents x) ∨ Held a h held y ∨ New y
  closure : ∀ r f η, h'.function? r = some f → Heap.handleOf? f = some η →
    (¬New (.function r) ∧ ∃ g, h.function? r = some g ∧ Heap.handleOf? g = some η) ∨
      (a.IsCurrent η ∧ η.Alive (a.refs h held))
  scopes : ∀ id ∈ held'.scopes, Held a h held (.scope id)

theorem Extends.alive {New : Holding → Prop} (extend : Extends New a h held b h' held')
    (safe : Safe a h held) {η : Handle} (alive : η.Alive (b.refs h' held')) :
    η.Alive (a.refs h held) := by
  refine alive.of_all fun θ member => ?_
  rcases Arena.mem_handles.1 member with ⟨id, anchored⟩ | ⟨r, f, living, found, made⟩ |
    ⟨id, there, handle⟩
  · have handle := Record.handle?_of_anchor? anchored
    rw [extend.handle] at handle
    have runs := extend.running id (Record.running_iff.2 ⟨θ, anchored⟩)
    exact .self (Arena.mem_handles.2 (.inl ⟨id, Record.anchor?_of_running runs handle⟩))
  · rcases extend.closure r f θ found made with ⟨old, g, before, made⟩ | ⟨-, alive⟩
    · have living := Arena.living_within _ New (fun x kept => Held.mem_living kept) extend.there
        extend.outer extend.contents living
      exact .self (Arena.mem_handles.2 (.inr (.inl ⟨r, g, living.resolve_right old, before, made⟩)))
    · exact alive
  · obtain ⟨ξ, known, alive⟩ := safe.handle (extend.scopes id there)
    rw [extend.handle, known] at handle
    exact Option.some.inj handle ▸ alive

theorem Safe.extend (New : Holding → Prop) (safe : Safe a h held) (tidy : b.Tidy)
    (chartered : b.Chartered) (extend : Extends New a h held b h' held') : Safe b h' held' where
  tidy := tidy
  chartered := chartered
  linked := (safe.linked.mono fun η alive => extend.alive safe alive).of_same extend.handle
  pinned r f id found made := by
    rcases extend.closure r f _ found made with ⟨-, g, before, made⟩ | ⟨current, -⟩
    · exact safe.pinned r g id before made
    · have own := safe.chartered.realm current
      cases own
  scopes id member := by
    rw [Record.allocated_iff, extend.handle, ← Record.allocated_iff]
    exact safe.allocated (extend.scopes id member)
  current r f η holds found made own := by
    rw [Arena.IsCurrent, extend.handle]
    rcases extend.closure r f η found made with ⟨old, g, before, made⟩ | ⟨current, -⟩
    · exact safe.current r g η ((extend.within _ holds).resolve_right old) before made
        (extend.realm ▸ own)
    · exact current

/-- What is referred to from records and values is what bindings and values refer to. -/
theorem Arena.outer_cases {vs : List Value} {x : Holding} (outer : x ∈ a.outer vs) :
    (∃ v ∈ vs, Holding.ofValue? v = some x) ∨
      ∃ id, ∃ b ∈ (a.record id).bindings.values, Holding.ofValue? b.value = some x := by
  refine (Arena.mem_outer.1 outer).imp List.mem_filterMap.1 fun ⟨id, bound⟩ => ?_
  obtain ⟨v, member, refers⟩ := List.mem_filterMap.1 bound
  obtain ⟨b, there, rfl⟩ := List.mem_map.1 member
  exact ⟨id, b, there, refers⟩

theorem Arena.mem_outer_value {vs : List Value} {v : Value} {x : Holding} (member : v ∈ vs)
    (refers : Holding.ofValue? v = some x) : x ∈ a.outer vs :=
  Arena.mem_outer.2 (.inl (Holding.mem_ofValues member refers))

theorem Arena.mem_outer_binding {vs : List Value} {id : ScopeId} {b : Binding} {x : Holding}
    (member : b ∈ (a.record id).bindings.values) (refers : Holding.ofValue? b.value = some x) :
    x ∈ a.outer vs :=
  Arena.mem_outer.2 (.inr ⟨id, Holding.mem_ofValues (List.mem_map_of_mem member) refers⟩)

variable (h held) in
/-- What bindings and values refer to, where the bindings stay. -/
theorem Arena.outer_of_bindings {vs vs' : List Value} {x : Holding}
    (same : ∀ id, (b.record id).bindings = (a.record id).bindings)
    (values : ∀ v ∈ vs', ∀ x, Holding.ofValue? v = some x → x ∈ a.outer vs ∨ Held a h held x)
    (outer : x ∈ b.outer vs') : x ∈ a.outer vs ∨ Held a h held x := by
  rcases Arena.outer_cases outer with ⟨v, member, refers⟩ | ⟨id, bound, member, refers⟩
  · exact values v member x refers
  · exact .inl (Arena.mem_outer_binding (same id ▸ member) refers)

/-- Where the bindings stay, the same containers are left. -/
theorem Arena.living_of_bindings {vs : List Value} {x : Holding}
    (same : ∀ id, (b.record id).bindings = (a.record id).bindings) (living : x ∈ b.living h vs) :
    x ∈ a.living h vs := by
  refine (Arena.living_within (fun _ => False) (fun _ => False) (fun _ => False.elim)
    (fun _ => .inl) (fun y outer => ?_) (fun _ _ content => .inl ⟨False.elim, content⟩)
    living).resolve_right id
  rcases Arena.outer_cases outer with ⟨v, member, refers⟩ | ⟨id, bound, member, refers⟩
  · exact .inl (Arena.mem_outer_value member refers)
  · exact .inl (Arena.mem_outer_binding (same id ▸ member) refers)

namespace Safe

variable (safe : Safe a h held)

include safe

theorem bind (id : ScopeId) (name : String) {set : Binding}
    (owned : ∀ x, Holding.ofValue? set.value = some x → Held a h held x) :
    Safe (a.bind id name set) h held := by
  refine safe.extend (fun _ => False) (Arena.tidy_bind safe.tidy id name set)
    (safe.chartered.bind id name set) {
      realm := Arena.realm_bind ..
      handle := fun _ => Arena.handle?_bind ..
      running := fun x running => by rwa [Arena.phase_bind] at running
      within := fun x holds => .inl (held_of_bind owned holds)
      there := fun x inside => .inl inside
      outer := fun x outer => ?_
      contents := fun x y content => .inl ⟨False.elim, content⟩
      closure := fun r f η found made => .inl ⟨False.elim, f, found, made⟩
      scopes := fun x member => .root (.handle member) }
  rcases Arena.outer_cases outer with ⟨v, member, refers⟩ | ⟨x, bound, member, refers⟩
  · exact .inl (Arena.mem_outer_value member refers)
  · by_cases target : x = id ∧ id.index < a.records.size
    · obtain ⟨rfl, inside⟩ := target
      rw [Arena.bindings_bind_self inside] at member
      rcases Table.of_mem_values_insert member with rfl | old
      · exact .inr (.inl (owned _ refers))
      · exact .inl (Arena.mem_outer_binding old refers)
    · rw [Arena.bind, Arena.record_modifyRecord, if_neg target] at member
      exact .inl (Arena.mem_outer_binding member refers)

/-- Holders may change as long as they hold nothing that was not held. -/
theorem regard (scopes : ∀ id ∈ held'.scopes, Held a h held (.scope id))
    (values : ∀ v ∈ held'.values, ∀ x, Holding.ofValue? v = some x → Held a h held x) :
    Safe a h held' :=
  safe.extend (fun _ => False) safe.tidy safe.chartered {
    realm := rfl
    handle := fun _ => rfl
    running := fun _ running => running
    within := fun _ holds => .inl (holds.fewer
      (fun _ isRoot => isRoot.holds (fun _ running => running) scopes values)
      fun _ _ before refers => .step before refers)
    there := fun _ inside => .inl inside
    outer := fun _ outer => (Arena.outer_of_bindings h held (fun _ => rfl)
      (fun v member x refers => .inr (values v member x refers)) outer).imp_right .inl
    contents := fun _ _ content => .inl ⟨id, content⟩
    closure := fun _ f _ found made => .inl ⟨id, f, found, made⟩
    scopes := scopes }

theorem retire (id : ScopeId) : Safe (a.retire id) h held :=
  safe.extend (fun _ => False) (Arena.tidy_retire safe.tidy id) (safe.chartered.retire id) {
    realm := Arena.realm_retire a id
    handle := Arena.handle?_retire a id
    running := fun _ => Arena.running_of_retire
    within := fun _ holds => .inl (held_of_retire id holds)
    there := fun _ inside => .inl inside
    outer := fun _ outer => (Arena.outer_of_bindings h held (Arena.bindings_retire a id)
      (fun _ member _ refers => .inl (Arena.mem_outer_value member refers)) outer).imp_right .inl
    contents := fun _ _ content => .inl ⟨False.elim, content⟩
    closure := fun _ f _ found made => .inl ⟨False.elim, f, found, made⟩
    scopes := fun _ member => .root (.handle member) }

/-- A container that is made of what is held, and kept. -/
theorem make {made : Holding} {v : Value}
    (delivered : Holding.ofValue? v = some made) (others : ∀ x, x ≠ made → Unchanged a a h h' x)
    (content : ∀ y, Refers a h' made y → Held a h held y)
    (there : ∀ x ∈ h'.holdings, x ∈ h.holdings ∨ x = made)
    (closure : ∀ r f η, made = .function r → h'.function? r = some f → Heap.handleOf? f = some η →
      ∃ id, Held a h held (.scope id) ∧ (a.record id).handle? = some η) :
    Safe a h' { held with values := v :: held.values } :=
  safe.extend (· = made) safe.tidy safe.chartered {
    realm := rfl
    handle := fun _ => rfl
    running := fun _ running => running
    within := fun x holds => held_of_make delivered others content holds
    there := there
    outer := fun x outer => by
      rcases Arena.outer_cases outer with ⟨w, member, refers⟩ | ⟨id, bound, member, refers⟩
      · rcases List.mem_cons.1 member with rfl | old
        · exact .inr (.inr (Option.some.inj (refers.symm.trans delivered)))
        · exact .inl (Arena.mem_outer_value old refers)
      · exact .inl (Arena.mem_outer_binding member refers)
    contents := fun x y refers => by
      by_cases same : x = made
      · exact .inr (.inl (content y (same ▸ Refers.of_content refers)))
      · exact .inl ⟨same, contents_of_unchanged (others x same) ▸ refers⟩
    closure := fun r f η found handle => by
      by_cases same : .function r = made
      · obtain ⟨id, holds, known⟩ := closure r f η same.symm found handle
        obtain ⟨θ, there, alive⟩ := safe.handle holds
        rw [known] at there
        cases there
        exact .inr ⟨safe.chartered.isCurrent known, alive⟩
      · have unchanged : h'.function? r = h.function? r := others _ same
        exact .inl ⟨same, f, unchanged ▸ found, handle⟩
    scopes := fun id member => .root (.handle member) }

/-- A container that is filled with what is held. -/
theorem fill {touched : Holding} (container : ∀ id, touched ≠ .scope id)
    (others : ∀ x, x ≠ touched → Unchanged a a h h' x)
    (content : ∀ y, Refers a h' touched y → Held a h held y ∨ Refers a h touched y)
    (there : ∀ x ∈ h'.holdings, x ∈ h.holdings)
    (closure : ∀ r, (h'.function? r).bind Heap.handleOf? = (h.function? r).bind Heap.handleOf?) :
    Safe a h' held :=
  safe.extend (fun _ => False) safe.tidy safe.chartered {
    realm := rfl
    handle := fun _ => rfl
    running := fun _ running => running
    within := fun x holds => .inl (held_of_fill others
      (fun y before refers => (content y refers).elim id (.step before)) holds)
    there := fun x inside => .inl (there x inside)
    outer := fun x outer => .inl outer
    contents := fun x y refers => by
      by_cases same : x = touched
      · subst same
        have target (id : ScopeId) : y ≠ .scope id := by
          rintro rfl
          exact Heap.scope_not_mem_contents x id refers
        exact (content y (Refers.of_content refers)).symm.imp
          (fun before => ⟨id, before.mem_contents container target⟩) .inl
      · exact .inl ⟨id, contents_of_unchanged (others x same) ▸ refers⟩
    closure := fun r f η found made => by
      have same := closure r
      rw [found, Option.bind_some, made] at same
      obtain ⟨g, before, handle⟩ := Option.bind_eq_some_iff.1 same.symm
      exact .inl ⟨id, g, before, handle⟩
    scopes := fun id member => .root (.handle member) }

omit safe in
/-- What refers to handles once a scope was opened: the new one is the only one more. -/
theorem alive_of_open (safe : Safe a h held) {kind : ScopeKind} {parent : ScopeId} {η θ : Handle}
    (under : Held a h held (.scope parent)) (handle : (a.record parent).handle? = some η)
    (alive : θ.Alive ((a.openUnder kind parent η).2.refs h held)) :
    θ = a.freshHandle η ∨ θ.Alive (a.refs h held) := by
  have old {id : ScopeId} (there : (a.record id).phase ≠ .free) :
      (a.openUnder kind parent η).2.record id = a.record id := by
    rw [Arena.record_openUnder safe.tidy, if_neg]
    exact fun same => there (same ▸ Arena.nextSlot_free safe.tidy)
  have living {x : Holding} (living : x ∈ (a.openUnder kind parent η).2.living h held.values) :
      x ∈ a.living h held.values := by
    refine (Arena.living_within (fun _ => False) (fun _ => False) (fun _ => False.elim)
      (fun _ => .inl) (fun x outer => ?_)
        (fun x y content => .inl ⟨False.elim, content⟩) living).resolve_right id
    rcases Arena.outer_cases outer with ⟨v, member, refers⟩ | ⟨id, bound, member, refers⟩
    · exact .inl (Arena.mem_outer_value member refers)
    · rw [Arena.record_openUnder safe.tidy] at member
      split at member
      · exact absurd member List.not_mem_nil
      · exact .inl (Arena.mem_outer_binding member refers)
  have above : η.Alive (a.refs h held) := by
    obtain ⟨ξ, known, alive⟩ := safe.handle under
    rw [handle] at known
    exact Option.some.inj known ▸ alive
  obtain ⟨ξ, member, on⟩ := alive
  rcases Arena.mem_handles.1 member with ⟨id, anchored⟩ | ⟨r, f, there, found, made⟩ |
    ⟨id, there, known⟩
  · rw [Arena.record_openUnder safe.tidy] at anchored
    split at anchored
    · obtain rfl : a.freshHandle η = ξ := Option.some.inj anchored
      rcases List.mem_cons.1 on with rfl | on
      · exact .inl rfl
      · obtain ⟨ζ, there, higher⟩ := above
        exact .inr ⟨ζ, there, Handle.chain_trans higher on⟩
    · exact .inr ⟨ξ, Arena.mem_handles.2 (.inl ⟨id, anchored⟩), on⟩
  · exact .inr ⟨ξ, Arena.mem_handles.2 (.inr (.inl ⟨r, f, living there, found, made⟩)), on⟩
  · rw [old (safe.scopes id there)] at known
    exact .inr ⟨ξ, Arena.mem_handles.2 (.inr (.inr ⟨id, there, known⟩)), on⟩

theorem openUnder (kind : ScopeKind) {parent : ScopeId} {η : Handle}
    (under : Held a h held (.scope parent)) (handle : (a.record parent).handle? = some η) :
    Safe (a.openUnder kind parent η).2 h held where
  tidy := Arena.tidy_openUnder safe.tidy kind parent η
  chartered := safe.chartered.openUnder safe.tidy kind handle
  linked := safe.linked.openUnder safe.tidy safe.chartered kind handle
    fun _ alive => alive_of_open safe under handle alive
  pinned := safe.pinned
  scopes id member := by
    have there := safe.scopes id member
    rw [Arena.record_openUnder safe.tidy, if_neg]
    · exact there
    · exact fun same => there (same ▸ Arena.nextSlot_free safe.tidy)
  current r f θ holds found made own := by
    have before := (held_of_open safe under holds).resolve_right nofun
    rw [Arena.realm_openUnder] at own
    exact Arena.isCurrent_openUnder safe.tidy kind (safe.current r f θ before found made own)

end Safe

/-! ### Changes of one container -/

section Container

variable {x : Holding}

theorem unchanged_modifyArray {r : ArrayRef} (f : Array Value → Array Value)
    (apart : x ≠ .array r) : Unchanged a a h (h.modifyArray r f) x := by
  cases x with
  | array s =>
    have other : ¬r.index = s.index := fun equal => apart (by cases r; cases s; simp_all)
    simp [Unchanged, Heap.elements, Heap.modifyArray, Array.getElem?_modify, other]
  | scope => exact ⟨rfl, rfl⟩
  | object => rfl
  | function => rfl

theorem unchanged_modifyObject {r : ObjectRef} (f : Object → Object)
    (apart : x ≠ .object r) : Unchanged a a h (h.modifyObject r f) x := by
  cases x with
  | object s =>
    have other : ¬r.index = s.index := fun equal => apart (by cases r; cases s; simp_all)
    simp [Unchanged, Heap.object, Heap.modifyObject, Array.getElem?_modify, other]
  | scope => exact ⟨rfl, rfl⟩
  | array => rfl
  | function => rfl

theorem unchanged_modifyFunction {r : FunctionRef} (f : FunctionObject → FunctionObject)
    (apart : x ≠ .function r) : Unchanged a a h (h.modifyFunction r f) x := by
  cases x with
  | function s =>
    have other : ¬r.index = s.index := fun equal => apart (by cases r; cases s; simp_all)
    simp [Unchanged, Heap.function?, Heap.modifyFunction, Array.getElem?_modify, other]
  | scope => exact ⟨rfl, rfl⟩
  | array => rfl
  | object => rfl

theorem unchanged_newArray (elements : Array Value)
    (apart : x ≠ .array (h.newArray elements).1) : Unchanged a a h (h.newArray elements).2 x := by
  cases x with
  | array s =>
    have other : ¬s.index = h.arrays.size :=
      fun equal => apart (by cases s; simp_all [Heap.newArray])
    simp [Unchanged, Heap.elements, Heap.newArray, Array.getElem?_push, other]
  | scope => exact ⟨rfl, rfl⟩
  | object => rfl
  | function => rfl

theorem unchanged_newObject (o : Object)
    (apart : x ≠ .object (h.newObject o).1) : Unchanged a a h (h.newObject o).2 x := by
  cases x with
  | object s =>
    have other : ¬s.index = h.objects.size :=
      fun equal => apart (by cases s; simp_all [Heap.newObject])
    simp [Unchanged, Heap.object, Heap.newObject, Array.getElem?_push, other]
  | scope => exact ⟨rfl, rfl⟩
  | array => rfl
  | function => rfl

theorem unchanged_newFunction (f : FunctionObject)
    (apart : x ≠ .function (h.newFunction f).1) : Unchanged a a h (h.newFunction f).2 x := by
  cases x with
  | function s =>
    have other : ¬s.index = h.functions.size := fun equal =>
      apart (by cases s; simp_all [Heap.newFunction])
    simp [Unchanged, Heap.function?, Heap.newFunction, Array.getElem?_push, other]
  | scope => exact ⟨rfl, rfl⟩
  | array => rfl
  | object => rfl

/-! ### What there is after a change of one container -/

theorem Heap.mem_holdings_of_refers {y : Holding} (refers : Refers a h x y)
    (container : ∀ id, x ≠ .scope id) :
    x ∈ h.holdings :=
  (Arena.holdings_cases refers.source_mem_holdings).resolve_left fun ⟨id, scope⟩ =>
    container id scope

theorem holdings_modifyArray (r : ArrayRef) (f : Array Value → Array Value) :
    (h.modifyArray r f).holdings = h.holdings := by
  simp [Heap.holdings, Heap.modifyArray]

theorem holdings_modifyObject (r : ObjectRef) (f : Object → Object) :
    (h.modifyObject r f).holdings = h.holdings := by
  simp [Heap.holdings, Heap.modifyObject]

theorem holdings_modifyFunction (r : FunctionRef) (f : FunctionObject → FunctionObject) :
    (h.modifyFunction r f).holdings = h.holdings := by
  simp [Heap.holdings, Heap.modifyFunction]

theorem of_mem_holdings_newArray {elements : Array Value}
    (there : x ∈ (h.newArray elements).2.holdings) :
    x ∈ h.holdings ∨ x = .array (h.newArray elements).1 := by
  simp only [Heap.newArray, Heap.holdings, Array.size_push, List.range_succ, List.map_append,
    List.mem_append, List.map_cons, List.map_nil, List.mem_singleton] at there ⊢
  tauto

theorem of_mem_holdings_newObject {o : Object} (there : x ∈ (h.newObject o).2.holdings) :
    x ∈ h.holdings ∨ x = .object (h.newObject o).1 := by
  simp only [Heap.newObject, Heap.holdings, Array.size_push, List.range_succ, List.map_append,
    List.mem_append, List.map_cons, List.map_nil, List.mem_singleton] at there ⊢
  tauto

theorem of_mem_holdings_newFunction {f : FunctionObject}
    (there : x ∈ (h.newFunction f).2.holdings) :
    x ∈ h.holdings ∨ x = .function (h.newFunction f).1 := by
  simp only [Heap.newFunction, Heap.holdings, Array.size_push, List.range_succ, List.map_append,
    List.mem_append, List.map_cons, List.map_nil, List.mem_singleton] at there ⊢
  tauto

/-- Setting the properties of a function leaves its handle. -/
theorem handleOf?_setProps (t : FunctionRef) (props : Table Value) (r : FunctionRef) :
    ((h.modifyFunction t fun f => { f with props := props }).function? r).bind Heap.handleOf? =
      (h.function? r).bind Heap.handleOf? := by
  simp only [Heap.function?, Heap.modifyFunction, Array.getElem?_modify]
  split
  · cases h.functions[r.index]? <;> rfl
  · rfl

/-! ### What a new or filled container refers to -/

variable {y : Holding} {r : ArrayRef} {s : ObjectRef} {t : FunctionRef} {elements : Array Value}
  {o : Object} {f : FunctionObject} {props : Table Value}

theorem Refers.of_newArray
    (refers : Refers a (h.newArray elements).2 (.array (h.newArray elements).1) y) :
    ∃ v ∈ elements, Holding.ofValue? v = some y := by
  cases refers with
  | element member refers =>
    exact ⟨_, by simpa [Heap.elements, Heap.newArray] using member, refers⟩

theorem Refers.of_newObject
    (refers : Refers a (h.newObject o).2 (.object (h.newObject o).1) y) :
    (∃ v ∈ o.props.values, Holding.ofValue? v = some y) ∨
      ∃ p, o.prototype = some p ∧ y = .object p := by
  have made : (h.newObject o).2.object (h.newObject o).1 = o := by
    simp [Heap.object, Heap.newObject]
  cases refers with
  | property member refers => exact .inl ⟨_, made ▸ member, refers⟩
  | prototype above => exact .inr ⟨_, made ▸ above, rfl⟩

theorem Refers.of_newFunction
    (refers : Refers a (h.newFunction f).2 (.function (h.newFunction f).1) y) :
    (∃ v ∈ f.props.values ++ Heap.keptBy f, Holding.ofValue? v = some y) ∨
      ∃ η, Heap.handleOf? f = some η ∧ y = .scope η.scope := by
  have made {g : FunctionObject}
      (found : (h.newFunction f).2.function? (h.newFunction f).1 = some g) : g = f := by
    simpa [Heap.function?, Heap.newFunction] using found.symm
  cases refers with
  | own found member refers =>
    exact .inl ⟨_, List.mem_append_left _ (made found ▸ member), refers⟩
  | closure found handle => exact .inr ⟨_, made found ▸ handle, rfl⟩
  | kept found member refers =>
    exact .inl ⟨_, List.mem_append_right _ (made found ▸ member), refers⟩

theorem Refers.of_setArray
    (refers : Refers a (h.modifyArray r fun _ => elements) (.array r) y) :
    ∃ v ∈ elements, Holding.ofValue? v = some y := by
  have inside : r.index < h.arrays.size := by
    have there := Heap.array_mem_holdings.1 (Heap.mem_holdings_of_refers refers nofun)
    simpa [Heap.modifyArray] using there
  cases refers with
  | element member refers =>
    refine ⟨_, ?_, refers⟩
    simpa [Heap.elements, Heap.modifyArray, inside, Array.getElem_modify] using member

theorem Refers.of_setObject
    (refers : Refers a (h.modifyObject s fun _ => o) (.object s) y) :
    (∃ v ∈ o.props.values, Holding.ofValue? v = some y) ∨
      ∃ p, o.prototype = some p ∧ y = .object p := by
  have inside : s.index < h.objects.size := by
    have there := Heap.object_mem_holdings.1 (Heap.mem_holdings_of_refers refers nofun)
    simpa [Heap.modifyObject] using there
  have set : (h.modifyObject s fun _ => o).object s = o := by
    simp [Heap.object, Heap.modifyObject, inside, Array.getElem_modify]
  cases refers with
  | property member refers => exact .inl ⟨_, set ▸ member, refers⟩
  | prototype above => exact .inr ⟨_, set ▸ above, rfl⟩

theorem Refers.of_setProps
    (refers : Refers a (h.modifyFunction t fun f => { f with props := props }) (.function t) y) :
    (∃ v ∈ props.values, Holding.ofValue? v = some y) ∨ Refers a h (.function t) y := by
  have set {g : FunctionObject}
      (found : (h.modifyFunction t fun f => { f with props := props }).function? t = some g) :
      ∃ f, h.function? t = some f ∧ { f with props := props } = g := by
    simpa [Heap.function?, Heap.modifyFunction, Array.getElem?_modify] using found
  cases refers with
  | own found member refers =>
    obtain ⟨f, _, rfl⟩ := set found
    exact .inl ⟨_, member, refers⟩
  | closure found handle own =>
    obtain ⟨f, there, rfl⟩ := set found
    exact .inr (.closure there handle own)
  | kept found member refers =>
    obtain ⟨f, there, rfl⟩ := set found
    exact .inr (.kept there member refers)

end Container

end Scriptlet
