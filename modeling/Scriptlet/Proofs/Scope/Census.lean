import Mathlib.Data.List.Nodup
import Mathlib.Data.List.Perm.Basic
import Mathlib.Data.List.Permutation
import Mathlib.Logic.Relation
import Scriptlet.Proofs.Scope.Sweep

/-!
Counting references finds what is held from elsewhere.

The walk from the released records comes along every reference out of every node exactly once. So
what the counts are short of by its references are the references from elsewhere. Main statement:
`collectBy_exact` says which released records stay, that neither the order of bindings nor that of
the nodes matters, and when the records that stay are those that holders lead to.
-/

namespace Scriptlet

/-! ### Searches -/

section Reachable

variable {α : Type} [DecidableEq α] {next : α → List α} {nodes roots : List α}

theorem nodup_explore {reached unseen todo : List α} (distinct : reached.Nodup)
    (ahead : unseen.Nodup) (apart : ∀ n ∈ reached, n ∉ unseen) :
    (explore next reached unseen todo).Nodup := by
  fun_induction explore next reached unseen todo with
  | case1 => exact distinct
  | case2 reached unseen n rest fresh ih =>
    have new : n ∉ reached := fun old => apart n old fresh
    refine ih (List.nodup_cons.2 ⟨new, distinct⟩) (ahead.erase n) fun m member => ?_
    rcases List.mem_cons.1 member with rfl | member
    · exact ahead.not_mem_erase
    · exact fun later => apart m member (List.mem_of_mem_erase later)
  | case3 reached unseen n rest old ih => exact ih distinct ahead apart

theorem nodup_reachable (distinct : nodes.Nodup) : (reachable next nodes roots).Nodup :=
  nodup_explore List.nodup_nil distinct (by simp)

omit [DecidableEq α] in
theorem Reach.mem {n : α} (reach : Reach next nodes roots n) : n ∈ nodes := by
  cases reach with
  | root _ inside => exact inside
  | step _ _ inside => exact inside

omit [DecidableEq α] in
theorem Reach.mono {roots' : List α} (more : roots ⊆ roots') {n : α}
    (reach : Reach next nodes roots n) : Reach next nodes roots' n := by
  induction reach with
  | root there inside => exact .root (more there) inside
  | step _ edge inside ih => exact .step ih edge inside

omit [DecidableEq α] in
theorem Reach.congr {next' : α → List α} (same : ∀ m n, n ∈ next' m ↔ n ∈ next m) {n : α} :
    Reach next' nodes roots n ↔ Reach next nodes roots n := by
  constructor
  · intro reach
    induction reach with
    | root there inside => exact .root there inside
    | step _ edge inside ih => exact .step ih ((same ..).1 edge) inside
  · intro reach
    induction reach with
    | root there inside => exact .root there inside
    | step _ edge inside ih => exact .step ih ((same ..).2 edge) inside

end Reachable

/-! ### Walks -/

namespace Walk

variable {next : Holding → List Holding} {all roots : List Holding} {w : Walk} {x : Holding}

/-- What a walk meets when it goes along some references. -/
structure Meets (all targets : List Holding) (w w' : Walk) (fresh : List Holding) : Prop where
  nodes : w'.nodes = fresh ++ w.nodes
  pending : w'.pending = fresh ++ w.pending
  distinct : fresh.Nodup
  new : ∀ y ∈ fresh, y ∈ targets ∧ y ∈ all ∧ y ∉ w.nodes
  covers : ∀ y ∈ targets, y ∈ all → y ∈ w'.nodes

theorem meets_visit (all : List Holding) (w : Walk) (x : Holding) :
    ∃ fresh, Meets all [x] w (w.visit all x) fresh := by
  unfold visit
  split
  · rename_i new
    exact ⟨[x], rfl, rfl, by simp, by simpa using new, by simp⟩
  · rename_i old
    refine ⟨[], rfl, rfl, List.nodup_nil, by simp, fun y member inside => ?_⟩
    obtain rfl := List.mem_singleton.1 member
    exact Classical.not_not.1 fun absent => old ⟨inside, absent⟩

theorem Meets.cons {targets fresh later : List Holding} {w' w'' : Walk}
    (first : Meets all [x] w w' fresh) (rest : Meets all targets w' w'' later) :
    Meets all (x :: targets) w w'' (later ++ fresh) where
  nodes := by rw [rest.nodes, first.nodes, List.append_assoc]
  pending := by rw [rest.pending, first.pending, List.append_assoc]
  distinct := by
    refine List.nodup_append.2 ⟨rest.distinct, first.distinct, ?_⟩
    rintro y member _ before rfl
    refine (rest.new y member).2.2 ?_
    rw [first.nodes]
    exact List.mem_append_left _ before
  new y member := by
    rcases List.mem_append.1 member with member | member
    · obtain ⟨target, inside, absent⟩ := rest.new y member
      refine ⟨List.mem_cons_of_mem _ target, inside, fun there => absent ?_⟩
      rw [first.nodes]
      exact List.mem_append_right _ there
    · obtain ⟨target, inside, absent⟩ := first.new y member
      obtain rfl := List.mem_singleton.1 target
      exact ⟨List.mem_cons_self, inside, absent⟩
  covers y member inside := by
    rcases List.mem_cons.1 member with rfl | member
    · rw [rest.nodes]
      exact List.mem_append_right _ (first.covers y List.mem_cons_self inside)
    · exact rest.covers y member inside

@[simp] theorem internal_visit (all : List Holding) (w : Walk) (x : Holding) :
    (w.visit all x).internal = w.internal := by
  unfold visit
  split <;> rfl

@[simp] theorem edges_visit (all : List Holding) (w : Walk) (x : Holding) :
    (w.visit all x).edges = w.edges := by
  unfold visit
  split <;> rfl

/-- Going along some references counts each of them, and meets what they lead to. -/
theorem follow_all (all targets : List Holding) (x : Holding) (w : Walk) :
    let w' := targets.foldl (follow all x) w
    (∃ fresh, Meets all targets w w' fresh) ∧
      (∀ y, w'.internal y = w.internal y + targets.count y) ∧
      ∀ y, w'.edges y = if y = x then w.edges y ++ targets else w.edges y := by
  induction targets generalizing w with
  | nil => exact ⟨⟨[], rfl, rfl, List.nodup_nil, by simp, by simp⟩, by simp, by simp⟩
  | cons target targets ih =>
    obtain ⟨⟨later, rest⟩, internal, edges⟩ := ih (w.follow all x target)
    obtain ⟨fresh, first⟩ := meets_visit all w target
    -- counting a reference changes nothing about what was met
    have rest : Meets all targets (w.visit all target) _ later :=
      ⟨rest.nodes, rest.pending, rest.distinct, rest.new, rest.covers⟩
    refine ⟨⟨later ++ fresh, first.cons rest⟩, fun y => ?_, fun y => ?_⟩
    · rw [List.foldl_cons, internal y]
      simp only [follow, internal_visit, List.count_cons, beq_iff_eq]
      by_cases same : y = target
      · simp only [same, if_true]
        omega
      · simp only [same, Ne.symm same, if_false, Nat.add_zero]
    · rw [List.foldl_cons, edges y]
      simp only [follow, edges_visit]
      split
      · simp
      · rfl

/-- The state of a walk: what was gone through has all its references counted, and they lead to what
was met. -/
structure Sound (next : Holding → List Holding) (all roots : List Holding) (w : Walk) : Prop where
  distinct : w.nodes.Nodup
  once : w.pending.Nodup
  pending : w.pending ⊆ w.nodes
  started : ∀ x ∈ roots, x ∈ all → x ∈ w.nodes
  reached : ∀ x ∈ w.nodes, Reach next all roots x
  todo : ∀ x, x ∉ w.nodes ∨ x ∈ w.pending → w.edges x = []
  done : ∀ x ∈ w.nodes, x ∉ w.pending → w.edges x = next x
  closed : ∀ x ∈ w.nodes, ∀ y ∈ w.edges x, y ∈ all → y ∈ w.nodes
  internal : ∀ x, w.internal x = (w.nodes.flatMap w.edges).count x

/-- The references out of one node of a list are counted once. -/
theorem count_flatMap_of_eq {nodes : List Holding} {before after : Holding → List Holding}
    (distinct : nodes.Nodup) (member : x ∈ nodes) (none : before x = [])
    (same : ∀ y ∈ nodes, y ≠ x → after y = before y) (z : Holding) :
    (nodes.flatMap after).count z = (nodes.flatMap before).count z + (after x).count z := by
  have perm := List.perm_cons_erase member
  have others : (nodes.erase x).flatMap after = (nodes.erase x).flatMap before := by
    refine List.flatMap_congr fun y there => same y (List.mem_of_mem_erase there) ?_
    rintro rfl
    exact distinct.not_mem_erase there
  rw [(perm.flatMap_right after).count_eq, (perm.flatMap_right before).count_eq, List.flatMap_cons,
    List.flatMap_cons, none, others, List.nil_append, List.count_append]
  omega

theorem Sound.expand {rest : List Holding} (sound : w.Sound next all roots)
    (first : w.pending = x :: rest) :
    (({ w with pending := rest } : Walk).expand next all x).Sound next all roots := by
  have there : x ∈ w.nodes := sound.pending (first ▸ List.mem_cons_self)
  have once := first ▸ sound.once
  obtain ⟨apart, once⟩ := List.nodup_cons.1 once
  have none : w.edges x = [] := sound.todo x (.inr (first ▸ List.mem_cons_self))
  obtain ⟨⟨fresh, meets⟩, internal, edges⟩ :=
    follow_all all (next x) x { w with pending := rest }
  have nodes : (({ w with pending := rest } : Walk).expand next all x).nodes = fresh ++ w.nodes :=
    meets.nodes
  have pending : (({ w with pending := rest } : Walk).expand next all x).pending = fresh ++ rest :=
    meets.pending
  have own : (({ w with pending := rest } : Walk).expand next all x).edges x = next x := by
    refine (edges x).trans ?_
    rw [if_pos rfl, none, List.nil_append]
  have other {y : Holding} (differs : y ≠ x) :
      (({ w with pending := rest } : Walk).expand next all x).edges y = w.edges y :=
    (edges y).trans (if_neg differs)
  have ne_of_fresh {y : Holding} (member : y ∈ fresh) : y ≠ x := by
    rintro rfl
    exact (meets.new y member).2.2 there
  have in_rest {y : Holding} (member : y ∈ rest) : y ∈ w.nodes :=
    sound.pending (first ▸ List.mem_cons_of_mem x member)
  constructor
  case distinct =>
    rw [nodes]
    refine List.nodup_append.2 ⟨meets.distinct, sound.distinct, ?_⟩
    rintro y member _ old rfl
    exact (meets.new y member).2.2 old
  case once =>
    rw [pending]
    refine List.nodup_append.2 ⟨meets.distinct, once, ?_⟩
    rintro y member _ old rfl
    exact (meets.new y member).2.2 (in_rest old)
  case pending =>
    rw [nodes, pending]
    exact List.append_subset.2 ⟨List.subset_append_left .., fun y member =>
      List.mem_append_right _ (in_rest member)⟩
  case started =>
    intro y root inside
    rw [nodes]
    exact List.mem_append_right _ (sound.started y root inside)
  case reached =>
    intro y member
    rw [nodes] at member
    rcases List.mem_append.1 member with member | member
    · obtain ⟨target, inside, -⟩ := meets.new y member
      exact .step (sound.reached x there) target inside
    · exact sound.reached y member
  case todo =>
    intro y state
    have differs : y ≠ x := by
      rintro rfl
      rw [nodes, pending] at state
      rcases state with absent | member
      · exact absent (List.mem_append_right _ there)
      · rcases List.mem_append.1 member with member | member
        · exact ne_of_fresh member rfl
        · exact apart member
    rw [other differs]
    refine sound.todo y ?_
    rw [nodes, pending] at state
    rcases state with absent | member
    · exact .inl fun old => absent (List.mem_append_right _ old)
    · rcases List.mem_append.1 member with member | member
      · exact .inl (meets.new y member).2.2
      · exact .inr (first ▸ List.mem_cons_of_mem x member)
  case done =>
    intro y member gone
    by_cases same : y = x
    · rw [same, own]
    · rw [nodes] at member
      rw [pending] at gone
      rw [other same]
      have old := (List.mem_append.1 member).resolve_left fun new =>
        gone (List.mem_append_left _ new)
      refine sound.done y old fun waits => ?_
      rw [first] at waits
      rcases List.mem_cons.1 waits with same' | waits
      · exact same same'
      · exact gone (List.mem_append_right _ waits)
  case closed =>
    intro y member z edge inside
    rw [nodes] at member ⊢
    by_cases same : y = x
    · rw [same, own] at edge
      exact nodes ▸ meets.covers z edge inside
    · rw [other same] at edge
      refine List.mem_append_right _ ?_
      rcases List.mem_append.1 member with new | old
      · rw [sound.todo y (.inl (meets.new y new).2.2)] at edge
        exact absurd edge List.not_mem_nil
      · exact sound.closed y old z edge inside
  case internal =>
    intro z
    have untouched :
        fresh.flatMap (({ w with pending := rest } : Walk).expand next all x).edges = [] := by
      refine List.flatMap_eq_nil_iff.2 fun y member => ?_
      rw [other (ne_of_fresh member)]
      exact sound.todo y (.inl (meets.new y member).2.2)
    rw [nodes, List.flatMap_append, untouched, List.nil_append,
      count_flatMap_of_eq sound.distinct there none (fun y _ differs => other differs), own,
      ← sound.internal]
    exact internal z

/-- A walk that has come to its end. -/
structure Complete (next : Holding → List Holding) (all roots : List Holding) (w : Walk) :
    Prop where
  distinct : w.nodes.Nodup
  started : ∀ x ∈ roots, x ∈ all → x ∈ w.nodes
  reached : ∀ x ∈ w.nodes, Reach next all roots x
  edges : ∀ x ∈ w.nodes, w.edges x = next x
  closed : ∀ x ∈ w.nodes, ∀ y ∈ next x, y ∈ all → y ∈ w.nodes
  internal : ∀ x, w.internal x = (w.nodes.flatMap next).count x

theorem Sound.run (sound : w.Sound next all roots) : (w.run next all).Complete next all roots := by
  fun_induction Walk.run next all w with
  | case1 w empty =>
    have edges : ∀ x ∈ w.nodes, w.edges x = next x := fun x member =>
      sound.done x member (by simp [empty])
    refine ⟨sound.distinct, sound.started, sound.reached, edges, fun x member y edge => ?_,
      fun x => ?_⟩
    · exact sound.closed x member y (edges x member ▸ edge)
    · rw [sound.internal, List.flatMap_congr edges]
  | case2 w x rest first ih => exact ih (sound.expand first)

theorem sound_empty (next : Holding → List Holding) (all : List Holding) :
    ({} : Walk).Sound next all [] := by
  constructor <;> simp

/-- A walk may start from one node more. -/
theorem Sound.visit (sound : w.Sound next all roots) :
    (w.visit all x).Sound next all (x :: roots) := by
  have reached : ∀ y ∈ w.nodes, Reach next all (x :: roots) y := fun y member =>
    (sound.reached y member).mono fun _ => List.mem_cons_of_mem x
  unfold Walk.visit
  split
  · rename_i fresh
    have none : w.edges x = [] := sound.todo x (.inl fresh.2)
    constructor
    case distinct => exact List.nodup_cons.2 ⟨fresh.2, sound.distinct⟩
    case once =>
      exact List.nodup_cons.2 ⟨fun waits => fresh.2 (sound.pending waits), sound.once⟩
    case pending => exact List.cons_subset_cons x sound.pending
    case started =>
      intro y root inside
      rcases List.mem_cons.1 root with rfl | root
      · exact List.mem_cons_self
      · exact List.mem_cons_of_mem x (sound.started y root inside)
    case reached =>
      intro y member
      rcases List.mem_cons.1 member with rfl | member
      · exact .root List.mem_cons_self fresh.1
      · exact reached y member
    case todo =>
      intro y state
      by_cases same : y = x
      · rw [same, none]
      · refine sound.todo y (state.imp (fun absent old => absent (List.mem_cons_of_mem x old)) ?_)
        exact fun waits => (List.mem_cons.1 waits).resolve_left same
    case done =>
      intro y member gone
      refine sound.done y ?_ fun waits => gone (List.mem_cons_of_mem x waits)
      refine (List.mem_cons.1 member).resolve_left ?_
      rintro rfl
      exact gone List.mem_cons_self
    case closed =>
      intro y member z edge inside
      refine List.mem_cons_of_mem x ?_
      rcases List.mem_cons.1 member with rfl | member
      · rw [none] at edge
        exact absurd edge List.not_mem_nil
      · exact sound.closed y member z edge inside
    case internal =>
      intro z
      rw [List.flatMap_cons, none, List.nil_append]
      exact sound.internal z
  · rename_i old
    refine { sound with started := fun y root inside => ?_, reached := reached }
    rcases List.mem_cons.1 root with rfl | root
    · exact Classical.not_not.1 fun absent => old ⟨inside, absent⟩
    · exact sound.started y root inside

theorem Complete.mem_iff (complete : w.Complete next all roots) :
    x ∈ w.nodes ↔ Reach next all roots x := by
  refine ⟨complete.reached x, fun reach => ?_⟩
  induction reach with
  | root there inside => exact complete.started _ there inside
  | step _ edge inside ih => exact complete.closed _ ih _ edge inside

/-- What stays is what something leads to that is referred to from elsewhere. -/
theorem Complete.mem_live (complete : w.Complete next all roots) (c : Counts)
    {order : List Holding → List Holding} (orders : ∀ l, (order l).Perm l) :
    x ∈ w.live c order ↔
      Reach next w.nodes (w.nodes.filter fun y => decide (0 < w.external c y)) x := by
  rw [live, mem_reachable_iff]
  have same (y : Holding) : y ∈ (order w.nodes).filter (fun y => decide (0 < w.external c y)) ↔
      y ∈ w.nodes.filter fun y => decide (0 < w.external c y) := by
    rw [List.mem_filter, List.mem_filter, (orders w.nodes).mem_iff]
  constructor
  · intro reach
    induction reach with
    | root there inside => exact .root ((same _).1 there) inside
    | step before edge inside ih => exact .step ih (complete.edges _ before.mem ▸ edge) inside
  · intro reach
    induction reach with
    | root there inside => exact .root ((same _).2 there) inside
    | step before edge inside ih =>
      exact .step ih ((complete.edges _ before.mem).symm ▸ edge) inside

end Walk

namespace Arena

variable {a : Arena} {h : Heap} {c : Counts} {held : Holders} {others : Holding → Nat}
  {next : Holding → List Holding} {order : List Holding → List Holding}

/-! ### What the walk meets -/

/-- What the released records lead to along the references that are counted. -/
def walked (a : Arena) (h : Heap) (c : Counts) : List Holding :=
  reachable (a.counted h c) (a.holdings h) (a.released.map .scope)

/-- How many of the references that are counted lead to a node. -/
def internal (a : Arena) (h : Heap) (c : Counts) (x : Holding) : Nat :=
  ((a.walked h c).flatMap (a.counted h c)).count x

/-- There is a path of references that are counted. -/
def Leads (a : Arena) (h : Heap) (c : Counts) : Holding → Holding → Prop :=
  Relation.ReflTransGen fun x y => y ∈ a.counted h c x

theorem nodup_holdings (a : Arena) (h : Heap) : (a.holdings h).Nodup := by
  have scopes : (a.ids.map Holding.scope).Nodup := by
    rw [ids, List.map_map]
    exact List.Nodup.map (fun i j same => by simpa using same) List.nodup_range
  refine List.nodup_append.2 ⟨scopes, h.nodup_holdings, ?_⟩
  rintro x scope y there rfl
  obtain ⟨id, -, rfl⟩ := List.mem_map.1 scope
  exact Heap.scope_not_mem_holdings id there

theorem complete_survey (a : Arena) (h : Heap) (next : Holding → List Holding) :
    (a.survey h next).Complete next (a.holdings h) (a.released.map .scope) := by
  refine Walk.Sound.run ?_
  induction a.released with
  | nil => exact Walk.sound_empty ..
  | cons id released ih => exact ih.visit

section Survey

variable (lists : ∀ x, (next x).Perm (a.counted h c x))

include lists

theorem mem_survey {x : Holding} : x ∈ (a.survey h next).nodes ↔ x ∈ a.walked h c := by
  rw [(a.complete_survey h next).mem_iff, walked, mem_reachable_iff]
  exact Reach.congr fun m n => (lists m).mem_iff

theorem internal_survey (x : Holding) : (a.survey h next).internal x = a.internal h c x := by
  have nodes : (a.survey h next).nodes.Perm (a.walked h c) :=
    (List.perm_ext_iff_of_nodup (a.complete_survey h next).distinct
      (nodup_reachable (a.nodup_holdings h))).2 fun x => mem_survey lists
  rw [(a.complete_survey h next).internal]
  exact (nodes.flatMap fun x _ => lists x).count_eq x

/-- What the counts are short of is what refers to a node from elsewhere. -/
theorem external_survey {x : Holding}
    (count : c.strong x = a.internal h c x + others x) :
    (a.survey h next).external c x = others x := by
  unfold Walk.external
  rw [internal_survey lists]
  cases x <;> simp only [count] <;> omega

end Survey

/-- Only what there is has references. -/
theorem mem_holdings_of_counted (tidy : a.Tidy) {x y : Holding} (edge : y ∈ a.counted h c x) :
    x ∈ a.holdings h := by
  cases x with
  | scope id =>
    rw [counted] at edge
    split at edge
    · rename_i released
      rw [tidy.released] at released
      exact scope_mem_holdings.2 (lt_size_of_allocated (by simp [released]))
    · exact absurd edge List.not_mem_nil
  | array | object => exact mem_holdings_of_heap (Heap.mem_holdings_of_contents edge)
  | function r =>
    refine mem_holdings_of_heap (Heap.function_mem_holdings.2 (Nat.lt_of_not_le fun outside => ?_))
    have none : h.function? r = none := Array.getElem?_eq_none outside
    simp [counted, none] at edge

/-! ### What stays -/

/-- Something leads to a node that is referred to from elsewhere, too. -/
def Supported (a : Arena) (h : Heap) (c : Counts) (others : Holding → Nat) (x : Holding) : Prop :=
  ∃ y ∈ a.walked h c, 0 < others y ∧ a.Leads h c y x

theorem Supported.step {x y : Holding} (supported : a.Supported h c others x)
    (edge : y ∈ a.counted h c x) : a.Supported h c others y := by
  obtain ⟨z, walked, referred, leads⟩ := supported
  exact ⟨z, walked, referred, leads.tail edge⟩

/-- The walk comes to all on a path, since only what there is leads on. -/
theorem walked_of_leads (tidy : a.Tidy) {x y : Holding} (walked : x ∈ a.walked h c)
    (leads : a.Leads h c x y) (there : y ∈ a.holdings h) : y ∈ a.walked h c := by
  induction leads with
  | refl => exact walked
  | tail _ edge ih =>
    have before := ih (mem_holdings_of_counted tidy edge)
    rw [Arena.walked, mem_reachable_iff] at before ⊢
    exact .step before edge there

theorem walked_of_released (tidy : a.Tidy) {id : ScopeId} (released : id ∈ a.released) :
    .scope id ∈ a.walked h c := by
  rw [walked, mem_reachable_iff]
  refine .root (List.mem_map_of_mem released) (scope_mem_holdings.2 (lt_size_of_allocated ?_))
  rw [tidy.released] at released
  simp [released]

section Live

variable (tidy : a.Tidy) (lists : ∀ x, (next x).Perm (a.counted h c x))
  (orders : ∀ l, (order l).Perm l)
  (counts : ∀ x ∈ a.walked h c, c.strong x = a.internal h c x + others x)

include tidy lists orders counts

/-- The counts tell what something leads to that is referred to from elsewhere. -/
theorem mem_live_iff {x : Holding} (walked : x ∈ a.walked h c) :
    x ∈ (a.survey h next).live c order ↔ a.Supported h c others x := by
  have nodes {y : Holding} : y ∈ (a.survey h next).nodes ↔ y ∈ a.walked h c := mem_survey lists
  have external {y : Holding} (walked : y ∈ a.walked h c) :
      (a.survey h next).external c y = others y := external_survey lists (counts y walked)
  rw [(a.complete_survey h next).mem_live c orders]
  constructor
  · intro reach
    clear walked
    induction reach with
    | root there inside =>
      have walked := nodes.1 inside
      have referred := (List.mem_filter.1 there).2
      rw [external walked, decide_eq_true_eq] at referred
      exact ⟨_, walked, referred, .refl⟩
    | step before edge inside ih => exact ih.step ((lists _).mem_iff.1 edge)
  · rintro ⟨y, start, referred, leads⟩
    induction leads with
    | refl =>
      refine .root (List.mem_filter.2 ⟨nodes.2 walked, ?_⟩) (nodes.2 walked)
      rwa [external walked, decide_eq_true_eq]
    | @tail z x leads edge ih =>
      have before := walked_of_leads tidy start leads (mem_holdings_of_counted tidy edge)
      exact .step (ih before) ((lists z).mem_iff.2 edge) (nodes.2 walked)

end Live

/-! ### What holders lead to -/

/-- A reference that the walk does not come along: one of a holder, one out of something that stays
and that the walk does not go through, or one that a native function keeps. -/
inductive Outside (a : Arena) (h : Heap) (c : Counts) (held : Holders) : Holding → Prop where
  | root {x : Holding} : x ∈ a.roots held → Outside a h c held x
  | running {id : ScopeId} {x : Holding} : .scope id ∈ a.retained h held → id ∉ a.released →
      x ∈ a.references h (.scope id) → Outside a h c held x
  | apart {x y : Holding} : x ∈ a.retained h held → x ∉ a.walked h c → y ∈ a.references h x →
      Outside a h c held y
  | kept {r : FunctionRef} {f : FunctionObject} {x : Holding} : .function r ∈ a.retained h held →
      h.function? r = some f → x ∈ Holding.ofValues (Heap.keptBy f) → Outside a h c held x

/-- A closure of the arena's own leads home. -/
theorem mem_home_iff {r : FunctionRef} {f : FunctionObject} (found : h.function? r = some f)
    {y : Holding} : y ∈ a.home h (.function r) ↔
      ∃ η, Heap.handleOf? f = some η ∧ η.realm? = some a.realm ∧ y = .scope η.scope := by
  simp only [home, found, Option.bind_some]
  cases made : Heap.handleOf? f with
  | none => simp
  | some η =>
    by_cases own : η.realm? = some a.realm
    · simp [own]
    · simp [own]

/-- What is counted is a reference. -/
theorem counted_subset_references {x : Holding}
    (own : ∀ r f η, x = .function r → h.function? r = some f → Heap.handleOf? f = some η →
      c.current r = true → η.realm? = some a.realm) :
    a.counted h c x ⊆ a.references h x := by
  intro y edge
  cases x with
  | scope id =>
    rw [counted] at edge
    split at edge
    · rcases List.mem_append.1 edge with edge | edge
      · split at edge
        · exact List.mem_append_left _ edge
        · exact absurd edge List.not_mem_nil
      · exact List.mem_append_right _ edge
    · exact absurd edge List.not_mem_nil
  | array | object => exact List.mem_append_left _ edge
  | function r =>
    cases found : h.function? r with
    | none => simp [counted, found] at edge
    | some f =>
      simp only [counted, found] at edge
      rcases List.mem_append.1 edge with edge | edge
      · refine List.mem_append_left _ ?_
        simp only [Heap.contents, found]
        exact List.mem_append_left _ edge
      · split at edge
        · rename_i current
          obtain ⟨id, scope, rfl⟩ := Option.map_eq_some_iff.1 (Option.mem_toList.1 edge)
          obtain ⟨η, made, rfl⟩ := Option.map_eq_some_iff.1 scope
          exact List.mem_append_right _
            ((mem_home_iff found).2 ⟨η, made, own r f η rfl found made current, rfl⟩)
        · exact absurd edge List.not_mem_nil

/-- The references of what the walk goes through are counted, but for those of a handle that there
is not and those that a native function keeps. -/
theorem counted_of_references {x y : Holding}
    (current : ∀ r f η, x = .function r → h.function? r = some f → Heap.handleOf? f = some η →
      η.realm? = some a.realm → c.current r = true)
    (edge : y ∈ a.references h x) (through : ∀ id, x = .scope id → id ∈ a.released)
    (handle : 0 < c.strong x) :
    y ∈ a.counted h c x ∨
      ∃ r f, x = .function r ∧ h.function? r = some f ∧ y ∈ Holding.ofValues (Heap.keptBy f) := by
  cases x with
  | scope id =>
    rw [counted, if_pos (through id rfl), if_pos handle]
    exact .inl edge
  | array | object => exact .inl ((List.mem_append.1 edge).resolve_right List.not_mem_nil)
  | function r =>
    cases found : h.function? r with
    | none => simp [references, Heap.contents, home, found] at edge
    | some f =>
      rcases List.mem_append.1 edge with edge | edge
      · simp only [Heap.contents, found] at edge
        refine (List.mem_append.1 edge).imp (fun own => ?_) fun kept => ⟨r, f, rfl, found, kept⟩
        simp only [counted, found]
        exact List.mem_append_left _ own
      · obtain ⟨η, made, own, rfl⟩ := (mem_home_iff found).1 edge
        refine .inl ?_
        simp only [counted, found, current r f η rfl found made own, if_true, Heap.scopeOf?, made]
        exact List.mem_append_right _ List.mem_cons_self

theorem Outside.retained {x : Holding} (outside : a.Outside h c held x)
    (inside : x ∈ a.holdings h) : x ∈ a.retained h held := by
  rw [Arena.retained, mem_reachable_iff]
  cases outside with
  | root there => exact .root there inside
  | running before _ edge | apart before _ edge =>
    rw [Arena.retained, mem_reachable_iff] at before
    exact .step before edge inside
  | @kept r f _ before found kept =>
    rw [Arena.retained, mem_reachable_iff] at before
    refine .step before (List.mem_append_left _ ?_) inside
    simp only [Heap.contents, found]
    exact List.mem_append_right _ kept

/-- There is a reference to what something leads to that is referred to from elsewhere. -/
theorem Supported.strong_pos (tidy : a.Tidy)
    (counts : ∀ x ∈ a.walked h c, c.strong x = a.internal h c x + others x) {x : Holding}
    (supported : a.Supported h c others x) (walked : x ∈ a.walked h c) : 0 < c.strong x := by
  obtain ⟨y, start, referred, leads⟩ := supported
  rw [counts x walked]
  cases leads with
  | refl => omega
  | tail leads edge =>
    have before := walked_of_leads tidy start leads (mem_holdings_of_counted tidy edge)
    have : 0 < a.internal h c x :=
      List.count_pos_iff.2 (List.mem_flatMap.2 ⟨_, before, edge⟩)
    omega

/-- Where all references are accounted for, what is referred to from elsewhere is what holders lead
to. -/
theorem mem_retained_iff (tidy : a.Tidy)
    (counts : ∀ x ∈ a.walked h c, c.strong x = a.internal h c x + others x)
    (current : ∀ r f η, .function r ∈ a.walked h c → h.function? r = some f →
      Heap.handleOf? f = some η → (c.current r = true ↔ η.realm? = some a.realm))
    (elsewhere : ∀ x ∈ a.walked h c, 0 < others x ↔ a.Outside h c held x) {x : Holding}
    (walked : x ∈ a.walked h c) : x ∈ a.retained h held ↔ a.Supported h c others x := by
  constructor
  · intro live
    have reach := live
    rw [retained, mem_reachable_iff] at reach
    clear live
    induction reach with
    | root there => exact ⟨_, walked, (elsewhere _ walked).2 (.root there), .refl⟩
    | @step x y before edge inside ih =>
      have live : x ∈ a.retained h held := by rwa [retained, mem_reachable_iff]
      by_cases met : x ∈ a.walked h c
      · by_cases through : ∀ id, x = .scope id → id ∈ a.released
        · have supported := ih met
          have counted := counted_of_references (c := c) (by
            rintro r f η rfl found made own
            exact (current r f η met found made).2 own)
            edge through (supported.strong_pos tidy counts met)
          rcases counted with counted | ⟨r, f, rfl, found, kept⟩
          · exact supported.step counted
          · exact ⟨y, walked, (elsewhere y walked).2 (.kept live found kept), .refl⟩
        · obtain ⟨id, through⟩ := Classical.not_forall.1 through
          obtain ⟨rfl, apart⟩ := Classical.not_imp.1 through
          exact ⟨y, walked, (elsewhere y walked).2 (.running live apart edge), .refl⟩
      · exact ⟨y, walked, (elsewhere y walked).2 (.apart live met edge), .refl⟩
  · rintro ⟨y, start, referred, leads⟩
    have there := (mem_reachable_iff.1 walked).mem
    clear walked
    induction leads with
    | refl => exact ((elsewhere y start).1 referred).retained there
    | @tail z x leads edge ih =>
      have inside := mem_holdings_of_counted tidy edge
      have met := walked_of_leads tidy start leads inside
      have before := ih inside
      rw [retained, mem_reachable_iff] at before ⊢
      refine .step before (counted_subset_references ?_ edge) there
      rintro r f η rfl found made
      exact (current r f η met found made).1

/-- Looking through the released records by counting references keeps those that something leads to
which is referred to from elsewhere. Neither the order of bindings nor that of the nodes matters,
and where all references are accounted for, those records stay that holders lead to. -/
theorem collectBy_exact (tidy : a.Tidy) (lists : ∀ x, (next x).Perm (a.counted h c x))
    (orders : ∀ l, (order l).Perm l)
    (counts : ∀ x ∈ a.walked h c, c.strong x = a.internal h c x + others x) :
    (∀ id ∈ a.released, ((a.collectBy h c next order).record id).phase ≠ .free ↔
        ∃ x ∈ a.walked h c, 0 < others x ∧ a.Leads h c x (.scope id)) ∧
      a.collectBy h c next order = a.collectBy h c (a.counted h c) id ∧
      ∀ held, (∀ r f η, .function r ∈ a.walked h c → h.function? r = some f →
          Heap.handleOf? f = some η → (c.current r = true ↔ η.realm? = some a.realm)) →
        (∀ x ∈ a.walked h c, 0 < others x ↔ a.Outside h c held x) →
        a.collectBy h c next order = a.keep (a.retained h held) := by
  have live {id : ScopeId} (released : id ∈ a.released) :
      .scope id ∈ (a.survey h next).live c order ↔ a.Supported h c others (.scope id) :=
    mem_live_iff tidy lists orders counts (walked_of_released tidy released)
  refine ⟨fun id released => ?_, ?_, fun held current elsewhere => ?_⟩
  · exact (allocated_keep tidy _ released).trans (live released)
  · refine keep_congr fun x released => (live released).trans (mem_live_iff tidy (fun _ => .refl _)
      (fun _ => .refl _) counts (walked_of_released tidy released)).symm
  · exact keep_congr fun id released => (live released).trans (mem_retained_iff tidy counts current
      elsewhere (walked_of_released tidy released)).symm

/-- The handles of the root and of a scope under it. -/
def ownHandle : Handle :=
  .under 1 ⟨1⟩ (.top 0 0 root)

/-- A released scope that binds a function made in it. -/
def ownClosure : Arena where
  records := #[
    { kind := .block, parent := none, mooring := .anchored (.top 0 0 root) },
    { kind := .function, parent := some root, mooring := .weak ownHandle,
      bindings := Table.insert {} "f" ⟨.function ⟨0⟩, .var⟩ }]
  released := [⟨1⟩]
  collectAt := minCollectAt
  realm := 0
  made := 2

def closureHeap : Heap where
  functions := #[{
    name := "f"
    callable := .closure ⟨.declaration, none, [], .block ⟨[], ⟨0, 0⟩⟩, ⟨0, 0⟩⟩ ownHandle 0 }]

/-- One reference to everything, and the run of the root besides. -/
def closureCounts : Counts where
  strong x := if x = .scope root then 2 else 1
  current _ := true

theorem walked_ownClosure : ownClosure.walked closureHeap closureCounts =
    [.function ⟨0⟩, .scope root, .scope ⟨1⟩] := by
  cbv

/-- Only the run of the root is a reference from elsewhere. -/
theorem outside_ownClosure {x : Holding} :
    ownClosure.Outside closureHeap closureCounts {} x ↔ x = .scope root := by
  have roots : ownClosure.roots {} = [.scope root] := by cbv
  have retained : ownClosure.retained closureHeap {} = [.scope root] := by cbv
  have leaf : ownClosure.references closureHeap (.scope root) = [] := by cbv
  constructor
  · intro outside
    cases outside with
    | root there => simpa [roots] using there
    | running live _ edge =>
      rw [retained, List.mem_singleton] at live
      simp [live, leaf] at edge
    | apart live far _ =>
      rw [retained, List.mem_singleton] at live
      simp [live, walked_ownClosure] at far
    | kept live => simp [retained] at live
  · rintro rfl
    exact .root (by simp [roots])

theorem collectBy_exact_ownClosure :
    ownClosure.released = [⟨1⟩] ∧
      ((ownClosure.collectBy closureHeap closureCounts
        (ownClosure.counted closureHeap closureCounts) List.reverse).record ⟨1⟩).phase = .free ∧
      ownClosure.collectBy closureHeap closureCounts
        (ownClosure.counted closureHeap closureCounts) List.reverse =
          ownClosure.keep (ownClosure.retained closureHeap {}) := by
  have tidy : ownClosure.Tidy := by
    have opened := tidy_bind (tidy_openUnder (tidy_new 0) .function root (.top 0 0 root))
      ⟨1⟩ "f" ⟨.function ⟨0⟩, .var⟩
    exact tidy_retire opened ⟨1⟩
  have counts : ∀ x ∈ ownClosure.walked closureHeap closureCounts, closureCounts.strong x =
      ownClosure.internal closureHeap closureCounts x + if x = .scope root then 1 else 0 := by
    rw [walked_ownClosure]
    exact List.forall_mem_cons.2 ⟨by cbv, List.forall_mem_cons.2 ⟨by cbv,
      List.forall_mem_singleton.2 (by cbv)⟩⟩
  have exact := collectBy_exact tidy (fun _ => .refl _) List.reverse_perm counts
  have leaf (y : Holding) : y ∉ ownClosure.counted closureHeap closureCounts (.scope root) := by
    have none : ownClosure.counted closureHeap closureCounts (.scope root) = [] := by cbv
    simp [none]
  have own : ∀ r f η, .function r ∈ ownClosure.walked closureHeap closureCounts →
      closureHeap.function? r = some f → Heap.handleOf? f = some η →
        (closureCounts.current r = true ↔ η.realm? = some ownClosure.realm) := by
    intro r f η walked found made
    obtain rfl : r = ⟨0⟩ := by simpa [walked_ownClosure] using walked
    cases found
    cases made
    exact ⟨fun _ => by cbv, fun _ => rfl⟩
  refine ⟨rfl, ?_, exact.2.2 {} own fun x _ => ?_⟩
  · refine Classical.not_not.1 fun stays => ?_
    obtain ⟨x, -, referred, leads⟩ := (exact.1 ⟨1⟩ List.mem_cons_self).1 stays
    by_cases same : x = .scope root
    · subst same
      rcases leads.cases_head with same | ⟨y, edge, -⟩
      · simp [root] at same
      · exact leaf y edge
    · simp [same] at referred
  · rw [outside_ownClosure]
    by_cases same : x = .scope root <;> simp [same]

end Arena

end Scriptlet
