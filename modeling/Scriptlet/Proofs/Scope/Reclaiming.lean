import Mathlib.Data.List.Perm.Subperm
import Scriptlet.Proofs.Scope.Census

/-!
Reclaiming by counts keeps what is held.

The counts of an arena cover every reference: those of holders outside, of runs, and those out of
records and of containers that were not dropped. A walk comes along some of them only, so whatever
is held is counted more often than the walk comes to it, or is led to by something that is. Main
statements: `Safe.collect` and `Safe.release`, that looking through the released records and ending
a scope keep an arena safe, and `sweeps_collect` and `sweeps_release`, that they free nothing that
is held.
-/

namespace Scriptlet

/-! ### Counting over lists -/

section Count

variable {α β : Type} [DecidableEq α] [DecidableEq β] {l l' : List α} {f g : α → List β} {x : β}

omit [DecidableEq α] in
theorem count_flatMap_le_of_le (le : ∀ y ∈ l, (f y).count x ≤ (g y).count x) :
    (l.flatMap f).count x ≤ (l.flatMap g).count x := by
  induction l with
  | nil => exact Nat.le_refl _
  | cons y l ih =>
    rw [List.flatMap_cons, List.flatMap_cons, List.count_append, List.count_append]
    exact Nat.add_le_add (le y List.mem_cons_self)
      (ih fun z member => le z (List.mem_cons_of_mem _ member))

omit [DecidableEq α] in
/-- A value is counted as often as it is chosen if it is counted once at most where it is. -/
theorem count_flatMap_le_length_filterMap {γ : Type} {choose : α → Option γ}
    (le : ∀ y ∈ l, (f y).count x ≤ (choose y).toList.length) :
    (l.flatMap f).count x ≤ (l.filterMap choose).length := by
  induction l with
  | nil => exact Nat.le_refl _
  | cons y l ih =>
    have first := le y List.mem_cons_self
    have rest := ih fun z member => le z (List.mem_cons_of_mem _ member)
    rw [List.flatMap_cons, List.count_append, List.filterMap_cons]
    cases chosen : choose y with
    | none =>
      rw [chosen, Option.toList_none, List.length_nil] at first
      dsimp only
      omega
    | some θ =>
      rw [chosen, Option.toList_some, List.length_singleton] at first
      dsimp only
      rw [List.length_cons]
      omega

omit [DecidableEq α] in
theorem count_flatMap_lt_of_lt (le : ∀ y ∈ l, (f y).count x ≤ (g y).count x) {z : α}
    (member : z ∈ l)
    (lt : (f z).count x < (g z).count x) : (l.flatMap f).count x < (l.flatMap g).count x := by
  induction l with
  | nil => exact absurd member List.not_mem_nil
  | cons y l ih =>
    rw [List.flatMap_cons, List.flatMap_cons, List.count_append, List.count_append]
    have rest := fun w member => le w (List.mem_cons_of_mem y member)
    rcases List.mem_cons.1 member with rfl | member
    · exact Nat.add_lt_add_of_lt_of_le lt (count_flatMap_le_of_le rest)
    · exact Nat.add_lt_add_of_le_of_lt (le y List.mem_cons_self) (ih rest member)

/-- The members of a list are those of a part of it and the rest. -/
theorem perm_append_filter (distinct : l.Nodup) (distinct' : l'.Nodup) (part : l ⊆ l') :
    l'.Perm (l ++ l'.filter (· ∉ l)) := by
  refine (List.perm_ext_iff_of_nodup distinct' ?_).2 fun x => ?_
  · refine List.nodup_append.2 ⟨distinct, distinct'.filter _, fun y there z rest same => ?_⟩
    subst same
    simp [there] at rest
  · rw [List.mem_append, List.mem_filter, decide_eq_true_eq]
    by_cases there : x ∈ l
    · simp [there, part there]
    · simp [there]

/-- What part of a list leads to counts at most as often as what all of it leads to. -/
theorem count_flatMap_le (distinct : l.Nodup) (distinct' : l'.Nodup) (part : l ⊆ l')
    (le : ∀ y ∈ l, (f y).count x ≤ (g y).count x) :
    (l.flatMap f).count x ≤ (l'.flatMap g).count x := by
  have perm := (perm_append_filter distinct distinct' part).flatMap_right g
  rw [perm.count_eq, List.flatMap_append, List.count_append]
  exact Nat.le_add_right_of_le (count_flatMap_le_of_le le)

/-- It counts less often if something is left out that leads there. -/
theorem count_flatMap_lt (distinct : l.Nodup) (distinct' : l'.Nodup) (part : l ⊆ l')
    (le : ∀ y ∈ l, (f y).count x ≤ (g y).count x) {z : α} (member : z ∈ l') (edge : x ∈ g z)
    (left : z ∈ l → x ∉ f z) : (l.flatMap f).count x < (l'.flatMap g).count x := by
  have perm := (perm_append_filter distinct distinct' part).flatMap_right g
  rw [perm.count_eq, List.flatMap_append, List.count_append]
  by_cases there : z ∈ l
  · refine Nat.lt_add_right _ (count_flatMap_lt_of_lt le there ?_)
    rw [List.count_eq_zero_of_not_mem (left there)]
    exact List.count_pos_iff.2 edge
  · have rest : 0 < ((l'.filter (· ∉ l)).flatMap g).count x :=
      List.count_pos_iff.2
        (List.mem_flatMap.2 ⟨z, List.mem_filter.2 ⟨member, by simp [there]⟩, edge⟩)
    have := count_flatMap_le_of_le le
    omega

end Count

namespace Arena

/-- What the counts tell to stay. -/
def staying (a : Arena) (h : Heap) (held : Holders) : List Holding :=
  (a.survey h (a.counted h (a.counts h held))).live (a.counts h held) id

variable {a : Arena} {h : Heap} {held : Holders} {x y : Holding} {id : ScopeId} {η : Handle}

/-! ### All references -/

/-- What can refer to something: the records, and the containers that were not dropped. -/
def sources (a : Arena) (h : Heap) (held : Holders) : List Holding :=
  a.ids.map .scope ++ a.living h held.values

/-- The references that there are. -/
def links (a : Arena) (h : Heap) (held : Holders) : Holding → List Holding
  | .scope id =>
    (if 0 < (a.counts h held).strong (.scope id) then a.parentOf id else []) ++
      Holding.ofValues (boundValues (a.record id))
  | .function r =>
    h.contents (.function r) ++
      (if (a.counts h held).current r then (((h.function? r).bind Heap.scopeOf?).map .scope).toList
      else [])
  | other => h.contents other

theorem nodup_sources (a : Arena) (h : Heap) (held : Holders) : (a.sources h held).Nodup := by
  refine List.nodup_append.2 ⟨?_, a.nodup_living h held.values, ?_⟩
  · rw [ids, List.map_map]
    exact List.Nodup.map (fun i j same => by simpa using same) List.nodup_range
  · rintro x scope y living rfl
    obtain ⟨id, -, rfl⟩ := List.mem_map.1 scope
    exact Heap.scope_not_mem_holdings id (mem_holdings_of_living living)

theorem scope_mem_sources : .scope id ∈ a.sources h held ↔ id.index < a.records.size := by
  rw [sources, List.mem_append, or_iff_left fun living =>
    Heap.scope_not_mem_holdings id (mem_holdings_of_living living)]
  simp [mem_ids]

/-- There are references to a handle exactly if it is there. -/
theorem strong_pos_iff (handle : (a.record id).handle? = some η) :
    0 < (a.counts h held).strong (.scope id) ↔ η.Alive (a.refs h held) := by
  simp only [counts, handle, Option.map_some, Option.getD_some]
  exact Handle.handleCount_pos_iff

theorem current_iff {r : FunctionRef} :
    (a.counts h held).current r = true ↔
      ∃ f η, h.function? r = some f ∧ Heap.handleOf? f = some η ∧ a.IsCurrent η := by
  simp only [counts]
  cases found : h.function? r with
  | none => simp
  | some f =>
    cases made : Heap.handleOf? f with
    | none => simp [made]
    | some η => simp [made, IsCurrent]

/-- A reference that is counted is one that there is. -/
theorem count_counted_le (a : Arena) (h : Heap) (held : Holders) (x y : Holding) :
    (a.counted h (a.counts h held) x).count y ≤ (a.links h held x).count y := by
  cases x with
  | scope id =>
    rw [counted]
    split
    · exact Nat.le_refl _
    · exact Nat.zero_le _
  | array | object => exact Nat.le_refl _
  | function r =>
    cases found : h.function? r with
    | none => simp [counted, found]
    | some f =>
      simp only [counted, links, Heap.contents, found, Option.bind_some, List.count_append]
      omega

/-! ### Counts cover all references -/

section Cover

variable (chartered : a.Chartered) (linked : a.Linked (a.refs h held))

/-- Links to containers are contents of containers, or bindings. -/
theorem count_links_container (notScope : ∀ id, x ≠ .scope id) :
    ((a.sources h held).flatMap (a.links h held)).count x =
      (a.records.toList.flatMap fun r => Holding.ofValues (boundValues r)).count x +
        ((a.living h held.values).flatMap h.contents).count x := by
  have parent (id : ScopeId) : x ∉ a.parentOf id := fun above => by
    obtain ⟨p, _, same⟩ : ∃ p, (a.record id).parent = some p ∧ .scope p = x := by
      simpa [parentOf] using above
    exact notScope p same.symm
  have records : a.records.toList = a.ids.map a.record := by
    refine List.ext_getElem (by simp [ids]) fun i first second => ?_
    rw [Array.length_toList] at first
    simp [ids, record, first]
  rw [sources, List.flatMap_append, List.count_append, records, List.flatMap_map, List.flatMap_map]
  congr 1
  · rw [List.count_flatMap, List.count_flatMap]
    refine congrArg List.sum (List.map_congr_left fun id _ => ?_)
    simp only [Function.comp_apply, links]
    rw [List.count_append, List.count_eq_zero_of_not_mem, Nat.zero_add]
    split
    · exact parent id
    · exact List.not_mem_nil
  · rw [List.count_flatMap, List.count_flatMap]
    refine congrArg List.sum (List.map_congr_left fun y living => ?_)
    simp only [Function.comp_apply]
    cases y with
    | scope id => exact absurd (mem_holdings_of_living living) (Heap.scope_not_mem_holdings id)
    | array | object => rfl
    | function r =>
      rw [links, List.count_append, Nat.add_eq_left]
      refine List.count_eq_zero_of_not_mem fun home => ?_
      split at home
      · obtain ⟨id, _, same⟩ := Option.map_eq_some_iff.1 (Option.mem_toList.1 home)
        exact notScope id same.symm
      · exact absurd home List.not_mem_nil

/-- The bindings of a record are no scopes. -/
theorem count_bound_scope (r : Record) (id : ScopeId) :
    (Holding.ofValues (boundValues r)).count (.scope id) = 0 :=
  List.count_eq_zero_of_not_mem fun bound => Holding.ne_scope_of_ofValues bound id rfl

include chartered linked in
/-- A record that is linked to one above has a handle below that of the other. -/
theorem handle_of_link (handle : (a.record id).handle? = some η) {x : ScopeId}
    (link : .scope id ∈ a.links h held (.scope x)) :
    ∃ θ, (a.record x).handle? = some θ ∧ θ.Alive (a.refs h held) ∧ θ.parent? = some η := by
  rcases List.mem_append.1 link with above | bound
  · split at above
    · rename_i there
      obtain ⟨parent, above, same⟩ : ∃ p, (a.record x).parent = some p ∧
        Holding.scope p = .scope id := by
        simpa [parentOf] using above
      cases same
      cases known : (a.record x).handle? with
      | none => simp [counts, known] at there
      | some θ =>
        have alive := (strong_pos_iff known).1 there
        rw [chartered.parent known] at above
        obtain ⟨ξ, up, rfl⟩ := Option.map_eq_some_iff.1 above
        have current := linked θ (chartered.isCurrent known) alive ξ up
        rw [current] at handle
        cases handle
        exact ⟨θ, rfl, alive, up⟩
    · exact absurd above List.not_mem_nil
  · exact absurd rfl (Holding.ne_scope_of_ofValues bound id)

include chartered linked in
/-- As many records are linked to one above as there are handles below that of the other. -/
theorem count_parents_le (handle : (a.record id).handle? = some η) :
    ((a.ids.map Holding.scope).flatMap (a.links h held)).count (.scope id) ≤
      (((a.refs h held).flatMap Handle.chain).filter fun θ =>
        decide (θ.parent? = some η)).eraseDups.length := by
  classical
  let below (x : ScopeId) : Option Handle :=
    (a.record x).handle?.filter fun θ => decide (θ.Alive (a.refs h held) ∧ θ.parent? = some η)
  have each (x : ScopeId) :
      (a.links h held (.scope x)).count (.scope id) ≤ (below x).toList.length := by
    by_cases link : .scope id ∈ a.links h held (.scope x)
    · obtain ⟨θ, known, alive, up⟩ := handle_of_link chartered linked handle link
      have there : below x = some θ := by simp [below, known, alive, up]
      rw [there, links, List.count_append, count_bound_scope]
      have once : (a.parentOf x).count (.scope id) ≤ 1 := by
        rw [parentOf]
        refine Nat.le_trans List.count_le_length ?_
        cases (a.record x).parent <;> simp
      split
      · exact once
      · exact Nat.zero_le _
    · rw [List.count_eq_zero_of_not_mem link]
      exact Nat.zero_le _
  have total : ((a.ids.map Holding.scope).flatMap (a.links h held)).count (.scope id) ≤
      (a.ids.filterMap below).length := by
    rw [List.flatMap_map]
    exact count_flatMap_le_length_filterMap fun x _ => each x
  have mem_below {x : ScopeId} {θ : Handle} (member : θ ∈ below x) :
      (a.record x).handle? = some θ ∧ θ.Alive (a.refs h held) ∧ θ.parent? = some η := by
    simpa [below, Option.filter_eq_some_iff] using member
  have distinct : (a.ids.filterMap below).Nodup := by
    refine List.Nodup.filterMap (fun x y θ first second => ?_) a.nodup_ids
    rw [← chartered.scope (mem_below first).1, ← chartered.scope (mem_below second).1]
  refine Nat.le_trans total (distinct.subperm fun θ member => ?_).length_le
  obtain ⟨x, -, there⟩ := List.mem_filterMap.1 member
  obtain ⟨-, alive, up⟩ := mem_below there
  rw [List.mem_eraseDups, List.mem_filter]
  exact ⟨alive.mem_flatMap, decide_eq_true up⟩

variable (held) in
/-- A closure that is linked to a scope refers to its handle. -/
theorem count_closure_le (handle : (a.record id).handle? = some η) (inside : y ∈ h.holdings) :
    (a.links h held y).count (.scope id) ≤ (h.handles [y]).count η := by
  have content : (h.contents y).count (.scope id) = 0 :=
    List.count_eq_zero_of_not_mem (Heap.scope_not_mem_contents y id)
  cases y with
  | scope x => exact absurd inside (Heap.scope_not_mem_holdings x)
  | array | object => exact Nat.le_trans (Nat.le_of_eq content) (Nat.zero_le _)
  | function r =>
    rw [links, List.count_append, content, Nat.zero_add]
    by_cases current : (a.counts h held).current r = true
    · obtain ⟨f, θ, found, made, known⟩ := current_iff.1 current
      rw [if_pos current, found, Option.bind_some, Heap.scopeOf?, made]
      by_cases same : θ.scope = id
      · rw [IsCurrent, same, handle] at known
        cases known
        simp [Heap.handles, found, made, same]
      · simp [same]
    · rw [if_neg current]
      exact Nat.zero_le _

variable (held) in
/-- As many closures are linked to a scope as refer to its handle. -/
theorem count_closures_le (handle : (a.record id).handle? = some η) {l : List Holding}
    (inside : ∀ y ∈ l, y ∈ h.holdings) :
    (l.flatMap (a.links h held)).count (.scope id) ≤ (h.handles l).count η := by
  induction l with
  | nil => exact Nat.le_refl _
  | cons y rest ih =>
    have first := count_closure_le held handle (inside y List.mem_cons_self)
    have later := ih fun z member => inside z (List.mem_cons_of_mem y member)
    have split : h.handles (y :: rest) = h.handles [y] ++ h.handles rest := by
      rw [Heap.handles, ← List.singleton_append, List.filterMap_append]
      rfl
    rw [List.flatMap_cons, List.count_append, split, List.count_append]
    omega

variable (held) in
/-- Runs and holders outside refer to handles as often as they are roots. -/
theorem count_roots_le (handle : (a.record id).handle? = some η) :
    (a.roots held).count (.scope id) ≤ (a.records.toList.filterMap Record.anchor?).count η +
      (held.scopes.filterMap fun id => (a.record id).handle?).count η := by
  have values : (Holding.ofValues held.values).count (.scope id) = 0 :=
    List.count_eq_zero_of_not_mem fun member => Holding.ne_scope_of_ofValues member id rfl
  have scopes (l : List ScopeId) : (l.map Holding.scope).count (.scope id) = l.count id :=
    List.count_map_of_injective l Holding.scope (fun _ _ same => Holding.scope.inj same) id
  have outside (l : List ScopeId) :
      l.count id ≤ (l.filterMap fun id => (a.record id).handle?).count η := by
    induction l with
    | nil => exact Nat.le_refl _
    | cons x rest ih =>
      by_cases same : x = id
      · subst same
        rw [List.filterMap_cons]
        simp only [handle]
        rw [List.count_cons_self, List.count_cons_self]
        exact Nat.succ_le_succ ih
      · rw [List.count_cons_of_ne same]
        refine Nat.le_trans ih ?_
        rw [List.filterMap_cons]
        split
        · exact Nat.le_refl _
        · exact List.count_le_count_cons
  have running : a.runningIds.count id ≤ (a.records.toList.filterMap Record.anchor?).count η := by
    by_cases runs : (a.record id).phase = .running
    · have anchored := Record.anchor?_of_running runs handle
      have there : a.record id ∈ a.records.toList := record_mem fun same => by
        rw [same] at anchored
        cases anchored
      refine Nat.le_trans (List.nodup_iff_count_le_one.1 (a.nodup_ids.filter _) id) ?_
      exact List.count_pos_iff.2 (List.mem_filterMap.2 ⟨_, there, anchored⟩)
    · rw [List.count_eq_zero_of_not_mem fun member => runs (mem_runningIds.1 member)]
      exact Nat.zero_le _
  rw [roots, List.count_append, scopes, List.count_append, values]
  have := outside held.scopes
  omega

include chartered linked in
/-- The counts cover all references: those of holders outside and of runs, and all links. -/
theorem references_le_strong (there : ∀ id, x = .scope id → (a.record id).phase ≠ .free) :
    (a.roots held).count x + ((a.sources h held).flatMap (a.links h held)).count x ≤
      (a.counts h held).strong x := by
  by_cases scope : ∃ id, x = .scope id
  · obtain ⟨id, rfl⟩ := scope
    obtain ⟨η, handle⟩ := Record.allocated_iff.1 (there id rfl)
    have roots := count_roots_le held handle
    have parents := count_parents_le chartered linked handle
    have living : ∀ y ∈ a.living h held.values, y ∈ h.holdings := fun _ => mem_holdings_of_living
    have closures := count_closures_le held handle living
    have strong : (a.counts h held).strong (.scope id) = handleCount (a.refs h held) η := by
      simp only [counts, handle, Option.map_some, Option.getD_some]
      rfl
    rw [strong, handleCount, sources, List.flatMap_append, List.count_append]
    have split : (a.refs h held).count η = (a.records.toList.filterMap Record.anchor?).count η +
        (h.handles (a.living h held.values)).count η +
        (held.scopes.filterMap fun id => (a.record id).handle?).count η := by
      rw [refs, handles, List.count_append, List.count_append]
    omega
  · have notScope (id : ScopeId) : x ≠ .scope id := fun same => scope ⟨id, same⟩
    have strong : (a.counts h held).strong x =
        (a.outer held.values ++ (a.living h held.values).flatMap h.contents).count x := by
      cases x with
      | scope id => exact absurd rfl (notScope id)
      | array | object | function => rfl
    have roots : (a.roots held).count x = (Holding.ofValues held.values).count x := by
      rw [Arena.roots, List.count_append, List.count_eq_zero_of_not_mem, Nat.zero_add]
      intro member
      obtain ⟨id, -, same⟩ := List.mem_map.1 member
      exact notScope id same.symm
    rw [strong, roots, count_links_container notScope, outer, List.count_append, List.count_append]
    omega

include chartered linked in
/-- Links lead to allocated records. -/
theorem allocated_of_link (link : .scope id ∈ a.links h held x) : (a.record id).phase ≠ .free := by
  cases x with
  | scope x =>
    rcases List.mem_append.1 link with above | bound
    · split at above
      · rename_i there
        obtain ⟨parent, above, same⟩ :
            ∃ p, (a.record x).parent = some p ∧ Holding.scope p = .scope id := by
          simpa [parentOf] using above
        cases same
        cases known : (a.record x).handle? with
        | none => simp [counts, known] at there
        | some θ =>
          rw [chartered.parent known] at above
          obtain ⟨ξ, up, rfl⟩ := Option.map_eq_some_iff.1 above
          exact
            (linked θ (chartered.isCurrent known) ((strong_pos_iff known).1 there) ξ up).allocated
      · exact absurd above List.not_mem_nil
    · exact absurd rfl (Holding.ne_scope_of_ofValues bound id)
  | array r => exact absurd link (Heap.scope_not_mem_contents (.array r) id)
  | object r => exact absurd link (Heap.scope_not_mem_contents (.object r) id)
  | function r =>
    rcases List.mem_append.1 link with content | home
    · exact absurd content (Heap.scope_not_mem_contents (.function r) id)
    · split at home
      · rename_i current
        obtain ⟨f, θ, found, made, known⟩ := current_iff.1 current
        rw [found, Option.bind_some, Heap.scopeOf?, made] at home
        obtain rfl : id = θ.scope := by simpa using home
        exact known.allocated
      · exact absurd home List.not_mem_nil

end Cover

/-! ### What the walk meets is covered -/

theorem mem_links_of_counted (edge : y ∈ a.counted h (a.counts h held) x) :
    y ∈ a.links h held x := by
  have le := count_counted_le a h held x y
  exact List.count_pos_iff.1 (Nat.lt_of_lt_of_le (List.count_pos_iff.2 edge) le)

/-- A link to a container is one of the contents of a container, or of a binding. -/
theorem outer_or_content_of_link (link : y ∈ a.links h held x) (inside : y ∈ h.holdings) :
    y ∈ a.outer held.values ∨ y ∈ h.contents x := by
  have notScope (id : ScopeId) : y ≠ .scope id := by
    rintro rfl
    exact Heap.scope_not_mem_holdings id inside
  cases x with
  | scope id =>
    rcases List.mem_append.1 link with above | bound
    · split at above
      · obtain ⟨parent, _, same⟩ := Option.map_eq_some_iff.1 (Option.mem_toList.1 above)
        exact absurd same.symm (notScope parent)
      · exact absurd above List.not_mem_nil
    · exact .inl (mem_outer.2 (.inr ⟨id, bound⟩))
  | array | object => exact .inr link
  | function r =>
    rcases List.mem_append.1 link with content | home
    · exact .inr content
    · split at home
      · obtain ⟨id, _, same⟩ := Option.map_eq_some_iff.1 (Option.mem_toList.1 home)
        exact absurd same.symm (notScope id)
      · exact absurd home List.not_mem_nil

/-- The walk goes through records, and through containers that were not dropped. -/
theorem walked_subset_sources : a.walked h (a.counts h held) ⊆ a.sources h held := by
  intro x walked
  have there := (mem_reachable_iff.1 walked).mem
  rcases holdings_cases there with ⟨id, rfl⟩ | inside
  · exact scope_mem_sources.2 (scope_mem_holdings.1 there)
  · refine List.mem_append_right _ (mem_living
      (P := fun x => x ∈ a.walked h (a.counts h held) ∧ x ∈ h.holdings) (fun _ => And.right) ?_
      ⟨walked, inside⟩)
    rintro x ⟨walked, inside⟩
    cases mem_reachable_iff.1 walked with
    | root start =>
      obtain ⟨id, -, rfl⟩ := List.mem_map.1 start
      exact absurd inside (Heap.scope_not_mem_holdings id)
    | @step y _ before edge _ =>
      refine (outer_or_content_of_link (mem_links_of_counted edge) inside).imp_right
        fun content => ?_
      exact ⟨y, ⟨mem_reachable_iff.2 before, Heap.mem_holdings_of_contents content⟩, content⟩

/-- The references to something that the walk does not come along. -/
def others (a : Arena) (h : Heap) (held : Holders) (x : Holding) : Nat :=
  (a.counts h held).strong x - a.internal h (a.counts h held) x

section Walked

variable (safe : Safe a h held)

include safe

theorem allocated_of_walked (walked : .scope id ∈ a.walked h (a.counts h held)) :
    (a.record id).phase ≠ .free := by
  cases mem_reachable_iff.1 walked with
  | root start =>
    obtain ⟨released, member, same⟩ := List.mem_map.1 start
    cases same
    simp [(safe.tidy.released id).1 member]
  | step _ edge => exact allocated_of_link safe.chartered safe.linked (mem_links_of_counted edge)

theorem links_le_strong (walked : x ∈ a.walked h (a.counts h held)) :
    (a.roots held).count x + ((a.sources h held).flatMap (a.links h held)).count x ≤
      (a.counts h held).strong x :=
  references_le_strong safe.chartered safe.linked fun _ same =>
    allocated_of_walked safe (same ▸ walked)

/-- The walk does not come to anything more often than it is counted. -/
theorem strong_eq_internal (walked : x ∈ a.walked h (a.counts h held)) :
    (a.counts h held).strong x =
      a.internal h (a.counts h held) x + a.others h held x := by
  have all := links_le_strong safe walked
  have some : a.internal h (a.counts h held) x ≤
      ((a.sources h held).flatMap (a.links h held)).count x :=
    count_flatMap_le (nodup_reachable (a.nodup_holdings h)) (a.nodup_sources h held)
      walked_subset_sources fun y _ => count_counted_le a h held y x
  rw [others]
  omega

/-- What is a root is referred to from elsewhere. -/
theorem others_pos_of_root (walked : x ∈ a.walked h (a.counts h held)) (root : x ∈ a.roots held) :
    0 < a.others h held x := by
  have all := links_le_strong safe walked
  have some : a.internal h (a.counts h held) x ≤
      ((a.sources h held).flatMap (a.links h held)).count x :=
    count_flatMap_le (nodup_reachable (a.nodup_holdings h)) (a.nodup_sources h held)
      walked_subset_sources fun y _ => count_counted_le a h held y x
  have : 0 < (a.roots held).count x := List.count_pos_iff.2 root
  rw [others]
  omega

/-- What something is linked to that the walk does not come along is referred to from elsewhere. -/
theorem others_pos_of_link (walked : x ∈ a.walked h (a.counts h held))
    (source : y ∈ a.sources h held)
    (link : x ∈ a.links h held y)
    (left : y ∈ a.walked h (a.counts h held) → x ∉ a.counted h (a.counts h held) y) :
    0 < a.others h held x := by
  have all := links_le_strong safe walked
  have some : a.internal h (a.counts h held) x <
      ((a.sources h held).flatMap (a.links h held)).count x :=
    count_flatMap_lt (nodup_reachable (a.nodup_holdings h)) (a.nodup_sources h held)
      walked_subset_sources (fun y _ => count_counted_le a h held y x) source link left
  rw [others]
  omega

/-- A link passes support on, or gives it. -/
theorem supported_of_link (walked : x ∈ a.walked h (a.counts h held))
    (source : y ∈ a.sources h held)
    (link : x ∈ a.links h held y)
    (before : y ∈ a.walked h (a.counts h held) → x ∈ a.counted h (a.counts h held) y →
      a.Supported h (a.counts h held) (a.others h held) y) :
    a.Supported h (a.counts h held) (a.others h held) x := by
  by_cases along : y ∈ a.walked h (a.counts h held) ∧ x ∈ a.counted h (a.counts h held) y
  · exact (before along.1 along.2).step along.2
  · exact ⟨x, walked, others_pos_of_link safe walked source link
      fun met edge => along ⟨met, edge⟩, .refl⟩

/-- A step from something held is a link. -/
theorem link_of_refers (holds : Held a h held x) (refers : Refers a h x y) :
    y ∈ a.links h held x := by
  cases refers with
  | @parent id parent above =>
    obtain ⟨η, handle, alive⟩ := safe.handle holds
    refine List.mem_append_left _ ?_
    rw [if_pos ((strong_pos_iff handle).2 alive)]
    simp [parentOf, above]
  | binding member refers =>
    exact List.mem_append_right _ (Holding.mem_ofValues (List.mem_map_of_mem member) refers)
  | @element r v y member refers =>
    exact (Refers.element member refers : Refers a h (.array r) y).mem_contents (by rintro _ ⟨⟩)
      fun id same => Holding.ofValue?_ne_scope v id (same ▸ refers)
  | @property r v y member refers =>
    exact (Refers.property member refers : Refers a h (.object r) y).mem_contents (by rintro _ ⟨⟩)
      fun id same => Holding.ofValue?_ne_scope v id (same ▸ refers)
  | prototype above =>
    exact (Refers.prototype above : Refers a h _ _).mem_contents (by rintro _ ⟨⟩) (by rintro _ ⟨⟩)
  | @own r f v y found member refers =>
    refine List.mem_append_left _ ?_
    exact (Refers.own found member refers : Refers a h (.function r) y).mem_contents
      (by rintro _ ⟨⟩)
      fun id same => Holding.ofValue?_ne_scope v id (same ▸ refers)
  | @kept r f v y found member refers =>
    refine List.mem_append_left _ ?_
    exact (Refers.kept found member refers : Refers a h (.function r) y).mem_contents
      (by rintro _ ⟨⟩)
      fun id same => Holding.ofValue?_ne_scope v id (same ▸ refers)
  | @closure r f η found made own =>
    refine List.mem_append_right _ ?_
    rw [if_pos (current_iff.2 ⟨f, η, found, made, safe.current r f η holds found made own⟩)]
    simp [found, Heap.scopeOf?, made]

omit safe in
theorem source_of_refers (holds : Held a h held x) (refers : Refers a h x y) :
    x ∈ a.sources h held := by
  have there := refers.source_mem_holdings
  rcases holdings_cases there with ⟨id, rfl⟩ | inside
  · exact scope_mem_sources.2 (scope_mem_holdings.1 there)
  · exact List.mem_append_right _ (holds.mem_living inside)

/-- What is held and met by the walk stays. -/
theorem supported_of_held (holds : Held a h held x) (walked : x ∈ a.walked h (a.counts h held)) :
    a.Supported h (a.counts h held) (a.others h held) x := by
  induction holds with
  | @root x isRoot =>
    refine ⟨x, walked, others_pos_of_root safe walked ?_, .refl⟩
    cases isRoot with
    | running running =>
      exact List.mem_append_left _
        (List.mem_map_of_mem (List.mem_append_left _ (mem_runningIds.2 running)))
    | handle member =>
      exact List.mem_append_left _ (List.mem_map_of_mem (List.mem_append_right _ member))
    | value member refers => exact List.mem_append_right _ (Holding.mem_ofValues member refers)
  | step before refers ih =>
    exact supported_of_link safe walked (source_of_refers before refers)
      (link_of_refers safe before refers) fun met _ => ih met

end Walked

/-! ### Looking through the released records -/

theorem pinned_eq (pinned : h.Pinned) (a : Arena) : h.pinned a = h := by
  have same : h.functions.map (Heap.pin a) = h.functions := by
    refine Array.ext (Array.size_map ..) fun i _ inside => ?_
    have none (id : ScopeId) := pinned ⟨i⟩ h.functions[i] id (Array.getElem?_eq_getElem inside)
    rw [Array.getElem_map, Heap.pin]
    split
    · rename_i fn id realm made
      exact absurd (by rw [Heap.handleOf?, made]) (none id)
    · rfl
  rw [Heap.pinned, same]

/-- Looking through the released records keeps those that the counts tell to stay. -/
theorem collect_eq (pinned : h.Pinned) (a : Arena) (held : Holders) :
    a.collect h held = a.keep (a.staying h held) := by
  simp only [collect, pinned_eq pinned, collectBy, staying]

theorem tidy_collect (tidy : a.Tidy) (h : Heap) (held : Holders) : (a.collect h held).Tidy :=
  tidy_keep tidy _

section Collect

variable (safe : Safe a h held)

include safe

theorem mem_live (walked : x ∈ a.walked h (a.counts h held)) :
    x ∈ a.staying h held ↔
      a.Supported h (a.counts h held) (a.others h held) x :=
  mem_live_iff safe.tidy (fun _ => .refl _) (fun _ => .refl _)
    (fun _ walked => strong_eq_internal safe walked) walked

/-- The record above one that stays stays, if the handle of the lower one is there. -/
theorem linked_keep : (a.keep (a.staying h held)).Linked (a.refs h held) := by
  intro η stays alive θ up
  have same : (a.keep (a.staying h held)).record η.scope = a.record η.scope :=
    (record_keep_cases safe.tidy _ η.scope).resolve_right fun gone => by
      rw [IsCurrent, gone.2.2] at stays
      cases stays
  have current : a.IsCurrent η := by
    rw [IsCurrent, ← same]
    exact stays
  have above := safe.linked η current alive θ up
  rcases record_keep_cases safe.tidy _ θ.scope with same' | ⟨released, gone, -⟩
  · rw [IsCurrent, same']
    exact above
  · -- the record above is linked to from below, so it is supported if the lower one is
    have walked := walked_of_released (h := h) (c := a.counts h held) safe.tidy released
    refine absurd ((mem_live safe walked).2 ?_) gone
    have parent : (a.record η.scope).parent = some θ.scope := by
      rw [safe.chartered.parent current, up, Option.map_some]
    have link : .scope θ.scope ∈ a.links h held (.scope η.scope) := by
      refine List.mem_append_left _ ?_
      rw [if_pos ((strong_pos_iff current).2 alive)]
      simp [parentOf, parent]
    refine supported_of_link safe walked
      (scope_mem_sources.2 (lt_size_of_allocated current.allocated)) link fun met edge => ?_
    refine (mem_live safe met).1 (Classical.not_not.1 fun out => ?_)
    rw [counted] at edge
    split at edge
    · rename_i ended
      rw [IsCurrent, record_keep safe.tidy, if_pos ⟨ended, out⟩] at stays
      cases stays
    · exact absurd edge List.not_mem_nil

end Collect

end Arena

variable {a : Arena} {h : Heap} {held : Holders}

/-- Looking through the released records clears nothing that is held. -/
theorem sweeps_collect (safe : Safe a h held) : Sweeps h held a (a.collect h held) := by
  rw [Arena.collect_eq safe.pinned]
  refine Arena.sweeps_keep safe.tidy fun id released holds => ?_
  have walked := Arena.walked_of_released (h := h) (c := a.counts h held) safe.tidy released
  exact (Arena.mem_live safe walked).2 (Arena.supported_of_held safe holds walked)

theorem linked_collect (safe : Safe a h held) : (a.collect h held).Linked (a.refs h held) := by
  rw [Arena.collect_eq safe.pinned]
  exact Arena.linked_keep safe

theorem Safe.collect (safe : Safe a h held) : Safe (a.collect h held) h held :=
  safe.sweep (Arena.tidy_collect safe.tidy h held) (sweeps_collect safe) (linked_collect safe)

/-! ### Ending a scope -/

section Release

variable {id : ScopeId} (apart : id ≠ Arena.root) (running : (a.record id).phase = .running)

include apart running

/-- The counts once a scope has ended do not depend on whether its end is noted. -/
theorem Arena.counts_retire : (a.retire id).counts h held = (a.loosen id).counts h held := by
  rw [Arena.retire_eq apart running]
  rfl

variable (held) in
/-- The end of a scope frees its record, or it is noted and the released ones may be looked
through. -/
theorem Arena.release_cases (pinned : h.Pinned) :
    (((a.retire id).counts h held).strong (.scope id) = 0 ∧
      a.release h held id = (a.loosen id).dispose id) ∨
    (a.release h held id = a.retire id ∧ (a.retire id).released.length < a.collectAt) ∨
    (a.release h held id = (a.retire id).collect h held ∧
      a.collectAt ≤ (a.retire id).released.length) := by
  have at_ : (a.retire id).collectAt = a.collectAt := by
    rw [Arena.retire_eq apart running]
    unfold Arena.loosen
    split <;> rfl
  simp only [Arena.release, beq_iff_eq, apart, running, bne_self_eq_false, Bool.or_false, if_false,
    Arena.pinned_eq pinned, Arena.counts_retire apart running, at_]
  by_cases free : ((a.loosen id).counts h held).strong (.scope id) = 0
  · exact .inl ⟨free, if_pos free⟩
  · rw [if_neg free]
    by_cases few : (a.retire id).released.length < a.collectAt
    · exact .inr (.inl ⟨if_pos few, few⟩)
    · exact .inr (.inr ⟨if_neg few, Nat.le_of_not_lt few⟩)

omit apart running in
theorem record_dispose_loosen_of_ne {x : ScopeId} (other : x ≠ id) :
    ((a.loosen id).dispose id).record x = (a.retire id).record x := by
  rw [Arena.record_dispose_of_ne other, Arena.record_loosen_of_ne other,
    Arena.record_retire_of_ne other]

omit apart running in
/-- A record is freed at once only if its handle is gone. -/
theorem not_alive_of_free (free : ((a.retire id).counts h held).strong (.scope id) = 0) {η : Handle}
    (known : ((a.retire id).record id).handle? = some η) : ¬η.Alive ((a.retire id).refs h held) :=
  fun alive => by
    have := (Arena.strong_pos_iff known).2 alive
    omega

variable (safe : Safe (a.retire id) h held)
  (free : ((a.retire id).counts h held).strong (.scope id) = 0)

include safe free

theorem sweeps_dispose : Sweeps h held (a.retire id) ((a.loosen id).dispose id) := by
  refine ⟨?_, ?_, fun x => ?_⟩
  · rw [Arena.realm_retire]
    exact Arena.realm_loosen a id
  · rw [Arena.made_retire]
    exact Arena.made_loosen a id
  · by_cases same : x = id
    · subst same
      refine .inr ⟨fun holds => ?_, ?_⟩
      · obtain ⟨η, known, alive⟩ := safe.handle holds
        exact not_alive_of_free free known alive
      · have inside : x.index < (a.loosen x).records.size := by
          rw [Arena.size_loosen]
          exact Arena.lt_size_of_allocated (by simp [running])
        rw [Arena.record_dispose, if_pos ⟨rfl, inside⟩, Arena.record_loosen apart,
          Arena.record_retire apart running, if_pos ⟨rfl, by rwa [Arena.size_loosen] at inside⟩]
    · exact .inl (record_dispose_loosen_of_ne same)

omit apart running in
theorem linked_dispose : ((a.loosen id).dispose id).Linked ((a.retire id).refs h held) := by
  intro η stays alive θ up
  have other : η.scope ≠ id := fun same => by
    rw [Arena.IsCurrent, same, Record.free_iff.1 (Arena.phase_dispose_self ..)] at stays
    cases stays
  rw [Arena.IsCurrent, record_dispose_loosen_of_ne other] at stays
  have above := safe.linked η stays alive θ up
  have apart' : θ.scope ≠ id := fun same => by
    rw [Arena.IsCurrent, same] at above
    exact not_alive_of_free free above (alive.parent up)
  rw [Arena.IsCurrent, record_dispose_loosen_of_ne apart']
  exact above

end Release

/-- What the end of a scope leaves behind. -/
structure Releases (a : Arena) (h : Heap) (held : Holders) (id : ScopeId) (b : Arena) : Prop where
  tidy : b.Tidy
  /-- Nothing is cleared that is held once the scope does not run any more. -/
  sweeps : Sweeps h held (a.retire id) b
  linked : b.Linked ((a.retire id).refs h held)

theorem releases_release (tidy : a.Tidy) {id : ScopeId} (safe : Safe (a.retire id) h held) :
    Releases a h held id (a.release h held id) := by
  have stays : Releases a h held id (a.retire id) := ⟨safe.tidy, .refl _, safe.linked⟩
  by_cases root : id = Arena.root
  · subst root
    have same : a.release h held Arena.root = a.retire Arena.root := by simp [Arena.release]
    rwa [same]
  by_cases running : (a.record id).phase = .running
  · rcases Arena.release_cases held root running safe.pinned with
      ⟨free, same⟩ | ⟨same, -⟩ | ⟨same, -⟩
    · rw [same]
      exact ⟨Arena.tidy_dispose_loosen tidy root running, sweeps_dispose root running safe free,
        linked_dispose safe free⟩
    · rwa [same]
    · rw [same]
      exact ⟨Arena.tidy_collect safe.tidy h held, sweeps_collect safe, linked_collect safe⟩
  · have same : a.release h held id = a.retire id := by
      simp [Arena.release, running, Arena.retire_of_not_running running]
    rwa [same]

theorem sweeps_release (safe : Safe a h held) (id : ScopeId) :
    Sweeps h held (a.retire id) (a.release h held id) :=
  (releases_release safe.tidy (safe.retire id)).sweeps

theorem Safe.release (safe : Safe a h held) (id : ScopeId) : Safe (a.release h held id) h held :=
  have releases := releases_release safe.tidy (safe.retire id)
  (safe.retire id).sweep releases.tidy releases.sweeps releases.linked

end Scriptlet
