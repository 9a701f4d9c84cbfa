import Mathlib.Data.List.Perm.Subperm
import Mathlib.Data.List.Nodup
import Scriptlet.Proofs.Scope.Desk

/-!
An account of the slots of an arena.

Main statement: whatever a desk that reclaims records is asked for, as long as scopes are only
opened and captured where they are held, every slot runs, is listed once as released or is listed
once as free, and the way up from every held scope comes to the root. Scopes may be ended in any
order, and more than once.
-/

namespace Scriptlet

namespace Arena

variable {a b : Arena} {id x : ScopeId}

/-- Every slot is in one of three states, and the released records are looked through in time. -/
structure Accounted (a : Arena) : Prop where
  slots : ∀ id, id.index < a.records.size →
    ((a.record id).phase = .running ∧ id ∉ a.released ∧ id ∉ a.free) ∨
      ((a.record id).phase ≠ .running ∧ a.released.count id = 1 ∧ id ∉ a.free) ∨
      ((a.record id).phase ≠ .running ∧ id ∉ a.released ∧ a.free.count id = 1)
  listed : ∀ id, id ∈ a.released ∨ id ∈ a.free → id.index < a.records.size
  root : (a.record Arena.root).phase = .running
  size_eq : a.size = a.runningIds.length + a.released.length
  few : a.released.length < a.collectAt
  least : minCollectAt ≤ a.collectAt

/-- The way up from a record comes to the root through allocated records, none of them twice, and
both walks stop where the records on it say. -/
def ComesToRoot (a : Arena) (id : ScopeId) : Prop :=
  ∃ path, a.Climbs id path ∧ path.getLast? = some Arena.root ∧ path.Nodup ∧
    (∀ x ∈ path, (a.record x).phase ≠ .free) ∧
    (∀ name, a.lookup? id name = path.findSome? (a.own name)) ∧
    path.find? a.stopsVar = some (a.hoistTarget id)

/-! ### Slots -/

/-- The slots are those that run and those on the two lists. -/
theorem Tidy.perm_ids (tidy : a.Tidy) : (a.runningIds ++ a.released ++ a.free).Perm a.ids := by
  have once : (a.runningIds ++ a.released ++ a.free).Nodup := by
    refine ((a.nodup_ids.filter _).append tidy.released_nodup ?_).append tidy.free_nodup ?_
    · intro id running released
      have runs := mem_runningIds.1 running
      simp [(tidy.released id).1 released] at runs
    · intro id allocated free
      have cleared := ((tidy.free id).1 free).2
      rcases List.mem_append.1 allocated with running | released
      · simp [mem_runningIds.1 running] at cleared
      · simp [(tidy.released id).1 released] at cleared
  refine (List.perm_ext_iff_of_nodup once a.nodup_ids).2 fun id => ?_
  rw [List.mem_append, List.mem_append, mem_runningIds, tidy.released, tidy.free, mem_ids]
  cases phase : (a.record id).phase with
  | free => simp
  | running | released =>
    simp [lt_size_of_allocated (by simp [phase] : (a.record id).phase ≠ .free)]

theorem Tidy.size_eq (tidy : a.Tidy) : a.size = a.runningIds.length + a.released.length := by
  have total := tidy.perm_ids.length_eq
  simp only [List.length_append, ids, List.length_map, List.length_range] at total
  simp only [size]
  omega

theorem Tidy.accounted (tidy : a.Tidy) (few : a.released.length < a.collectAt)
    (least : minCollectAt ≤ a.collectAt) : a.Accounted := by
  refine ⟨fun id inside => ?_, fun id listed => ?_, tidy.root, tidy.size_eq, few, least⟩
  · rw [tidy.released, tidy.free]
    cases phase : (a.record id).phase with
    | running => simp
    | released =>
      have once := List.count_eq_one_of_mem tidy.released_nodup ((tidy.released id).2 phase)
      simp [once]
    | free =>
      have once := List.count_eq_one_of_mem tidy.free_nodup ((tidy.free id).2 ⟨inside, phase⟩)
      simp [once, inside]
  · rcases listed with released | free
    · have phase := (tidy.released id).1 released
      exact lt_size_of_allocated (by simp [phase])
    · exact ((tidy.free id).1 free).1

/-- The released records are looked through in time. -/
structure Prompt (a : Arena) : Prop where
  few : a.released.length < a.collectAt
  least : minCollectAt ≤ a.collectAt

theorem prompt_new (realm : Nat) : (Arena.new realm).Prompt :=
  ⟨Nat.zero_lt_succ _, Nat.le_refl _⟩

theorem Prompt.of_same (prompt : a.Prompt) (released : b.released = a.released)
    (collectAt : b.collectAt = a.collectAt) : b.Prompt :=
  ⟨by rw [released, collectAt]; exact prompt.few, by rw [collectAt]; exact prompt.least⟩

theorem prompt_keep (a : Arena) (live : List Holding) : (a.keep live).Prompt := by
  constructor
  · simp only [keep, minCollectAt]
    omega
  · exact Nat.le_max_left ..

theorem prompt_collect (a : Arena) (h : Heap) (held : Holders) : (a.collect h held).Prompt :=
  prompt_keep ..

theorem collectAt_loosen (a : Arena) (id : ScopeId) : (a.loosen id).collectAt = a.collectAt := by
  unfold loosen
  split <;> rfl

theorem collectAt_retire (a : Arena) (id : ScopeId) : (a.retire id).collectAt = a.collectAt := by
  unfold retire
  split
  · rfl
  · exact collectAt_loosen a id

theorem prompt_release (prompt : a.Prompt) {h : Heap} (pinned : h.Pinned) (held : Holders)
    (id : ScopeId) : (a.release h held id).Prompt := by
  by_cases ends : id ≠ Arena.root ∧ (a.record id).phase = .running
  · rcases release_cases held ends.1 ends.2 pinned with
      ⟨-, same⟩ | ⟨same, few⟩ | ⟨same, -⟩
    · rw [same]
      exact prompt.of_same (released_loosen a id) (collectAt_loosen a id)
    · rw [same]
      have at_ := collectAt_retire a id
      exact ⟨at_ ▸ few, at_ ▸ prompt.least⟩
    · rw [same]
      exact prompt_collect ..
  · have same : a.release h held id = a := by
      unfold release
      rw [if_pos]
      by_cases root : id = Arena.root
      · simp [root]
      · simp [show (a.record id).phase ≠ .running from fun running => ends ⟨root, running⟩]
    rwa [same]

theorem collectAt_openUnder (a : Arena) (kind : ScopeKind) (parent : ScopeId) (η : Handle) :
    (a.openUnder kind parent η).2.collectAt = a.collectAt := by
  unfold openUnder
  split <;> rfl

/-! ### The top of the tree -/

/-- Only the root has no parent. -/
def RootOnTop (a : Arena) : Prop :=
  ∀ id, (a.record id).phase ≠ .free → (a.record id).parent = none → id = Arena.root

theorem rootOnTop_new (realm : Nat) : (Arena.new realm).RootOnTop := by
  intro id allocated _
  have inside := lt_size_of_allocated allocated
  simp only [Arena.new, List.size_toArray, List.length_cons, List.length_nil] at inside
  exact ScopeId.index_inj.1 (by simp only [Arena.root]; omega)

/-- A change that frees records, or leaves them their parents, leaves the root on top. -/
theorem RootOnTop.of_parents (top : a.RootOnTop)
    (parents : ∀ id, (b.record id).phase ≠ .free →
      (a.record id).phase ≠ .free ∧ (b.record id).parent = (a.record id).parent) : b.RootOnTop := by
  intro id allocated none
  obtain ⟨before, same⟩ := parents id allocated
  exact top id before (same ▸ none)

theorem RootOnTop.openUnder (top : a.RootOnTop) (tidy : a.Tidy) (kind : ScopeKind)
    (parent : ScopeId)
    (η : Handle) : (a.openUnder kind parent η).2.RootOnTop := by
  intro id allocated none
  rw [record_openUnder tidy] at allocated none
  split at none
  · cases none
  · rename_i other
    rw [if_neg other] at allocated
    exact top id allocated none

theorem RootOnTop.retire (top : a.RootOnTop) (id : ScopeId) : (a.retire id).RootOnTop :=
  top.of_parents fun x allocated =>
    ⟨fun cleared => allocated ((free_retire_iff a id x).2 cleared), parent_retire a id x⟩

theorem RootOnTop.sweep {h : Heap} {held : Holders} (top : a.RootOnTop)
    (sweeps : Sweeps h held a b) : b.RootOnTop := by
  refine top.of_parents fun x allocated => ?_
  have same := sweeps.record_of_allocated allocated
  rw [same] at allocated ⊢
  exact ⟨allocated, rfl⟩

theorem Climbs.getLast?_eq {path : List ScopeId} (climbs : a.Climbs id path) (top : a.RootOnTop)
    (allocated : ∀ x ∈ path, (a.record x).phase ≠ .free) : path.getLast? = some Arena.root := by
  induction climbs with
  | top none => rw [top _ (allocated _ List.mem_cons_self) none, List.getLast?_singleton]
  | up _ above ih =>
    have later := ih fun x on => allocated x (List.mem_cons_of_mem _ on)
    rw [List.getLast?_cons, later, Option.getD_some]

end Arena

namespace Desk

variable {d : Desk} {request : Request}

/-- Every request is granted when its turn comes. -/
def Granted (d : Desk) : List Request → Prop
  | [] => True
  | request :: rest => d.Grants request ∧ (d.step .reclaiming request).2.Granted rest

/-- What holds of a desk between requests. -/
structure Orderly (d : Desk) : Prop where
  sound : d.Sound
  prompt : d.arena.Prompt
  top : d.arena.RootOnTop

theorem Sets.prompt {v : Value} {a b : Arena} (sets : Sets v a b) (prompt : a.Prompt) :
    b.Prompt := by
  cases sets with
  | nothing => exact prompt
  | bind => exact prompt.of_same rfl rfl

theorem Sets.rootOnTop {v : Value} {a b : Arena} (sets : Sets v a b) (top : a.RootOnTop) :
    b.RootOnTop := by
  cases sets with
  | nothing => exact top
  | bind id name kind =>
    refine top.of_parents fun x allocated => ⟨?_, Arena.parent_bind ..⟩
    rwa [Arena.phase_bind] at allocated

/-! ### Requests keep the order -/

theorem orderly_new : Orderly {} :=
  ⟨sound_new, Arena.prompt_new 0, Arena.rootOnTop_new 0⟩

/-- Every request that is granted keeps the order. -/
theorem orderly_step (orderly : d.Orderly) (granted : d.Grants request) :
    Orderly (d.step .reclaiming request).2 := by
  have safe := orderly.sound.safe
  refine ⟨orderly.sound.step .reclaiming granted, ?_, ?_⟩
  · cases orderly.sound.arena_step .reclaiming granted with
    | same same => rw [same]; exact orderly.prompt
    | sets sets => exact sets.prompt orderly.prompt
    | opened _ same =>
      rw [same]
      exact orderly.prompt.of_same (Arena.released_openUnder ..) (Arena.collectAt_openUnder ..)
    | released same => rw [same]; exact Arena.prompt_release orderly.prompt safe.pinned ..
    | collected same => rw [same]; exact Arena.prompt_collect ..
  · cases orderly.sound.arena_step .reclaiming granted with
    | same same => rw [same]; exact orderly.top
    | sets sets => exact sets.rootOnTop orderly.top
    | opened _ same => rw [same]; exact orderly.top.openUnder safe.tidy _ _ _
    | released same => rw [same]; exact (orderly.top.retire _).sweep (sweeps_release safe _)
    | collected same => rw [same]; exact orderly.top.sweep (sweeps_collect safe)

theorem orderly_run {requests : List Request} (orderly : d.Orderly) (granted : d.Granted requests) :
    Orderly (d.run .reclaiming requests).2 := by
  induction requests generalizing d with
  | nil => exact orderly
  | cons request rest ih => exact ih (orderly_step orderly granted.1) granted.2

/-- The way up from a held scope comes to the root. -/
theorem Orderly.comesToRoot (orderly : d.Orderly) {id : ScopeId} (holds : d.Holds (.scope id)) :
    d.arena.ComesToRoot id := by
  obtain ⟨path, climbs⟩ := orderly.sound.safe.climbs holds
  have allocated : ∀ x ∈ path, (d.arena.record x).phase ≠ .free := fun x on =>
    orderly.sound.safe.allocated (holds.of_climbs climbs on)
  exact ⟨path, climbs, climbs.getLast?_eq orderly.top allocated, climbs.nodup, allocated,
    Arena.lookup?_eq climbs allocated, Arena.hoistTarget_eq climbs allocated⟩

/-- Whatever is asked for, as long as scopes are opened and captured where they are held: every slot
runs, is listed once as released or is listed once as free; the root runs; the size counts what is
not free; the released records stay below the count that makes the arena look through them; and the
way up from every held scope comes to the root, without coming by a record twice. -/
theorem slots_accounted (requests : List Request) (granted : Granted {} requests) :
    let d := (run .reclaiming {} requests).2
    d.arena.Accounted ∧ ∀ id, d.Holds (.scope id) → d.arena.ComesToRoot id := by
  have orderly := orderly_run orderly_new granted
  exact ⟨orderly.sound.safe.tidy.accounted orderly.prompt.few orderly.prompt.least,
    fun id holds => orderly.comesToRoot holds⟩

/-- A closure is made two scopes deep; the outer scope ends first, and both end twice. -/
def outlivedRequests : List Request :=
  let fn : Function := {
    kind := .expression, name := none, params := []
    body := .block { body := [], span := ⟨0, 0⟩ }, span := ⟨0, 0⟩ }
  [.push .function 0, .push .block 1, .edit (.declare .let_) 2 "x" (.string "kept"),
    .makeClosure "f" fn 2 0, .push .block 0, .release 1, .release 2, .release 1, .release 3,
    .release 2, .collect]

theorem slots_accounted_outlived :
    Granted {} outlivedRequests ∧
      let d := (run .reclaiming {} outlivedRequests).2
      d.arena.Accounted ∧ d.arena.ComesToRoot (d.at_ 2) := by
  have granted : Granted {} outlivedRequests := by
    refine ⟨⟨by decide, .root (.running rfl)⟩, ⟨by decide, .root (.running rfl)⟩, ?_,
      ⟨by decide, .root (.running rfl)⟩, ⟨by decide, .root (.running rfl)⟩, trivial,
        trivial, trivial,
      trivial, trivial, trivial, trivial⟩
    intro x refers
    cases refers
  obtain ⟨accounted, comes⟩ := slots_accounted outlivedRequests granted
  refine ⟨granted, accounted, comes _ ?_⟩
  -- the closure is kept, and it was made in the scope
  let handle : Handle := .under 2 ⟨2⟩ (.under 1 ⟨1⟩ (.top 0 0 Arena.root))
  have made : Refers (run .reclaiming {} outlivedRequests).2.arena
      (run .reclaiming {} outlivedRequests).2.heap (.function ⟨0⟩) (.scope handle.scope) :=
    .closure rfl rfl (by cbv)
  exact .step (.root (.value List.mem_cons_self rfl)) made

end Desk

end Scriptlet
