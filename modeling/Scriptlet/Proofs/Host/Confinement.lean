import Scriptlet.Proofs.Eval.Confinement
import Scriptlet.Proofs.Host.Discipline

/-!
Sessions of one world keep to their own functions and scopes.

Main statement: whatever hosts do with any number of sessions, a ledger of the issues of all slots
can be kept along with it, and whatever an evaluation of a session refers to is the scope of that
session that was meant. Closures of other sessions are refused wherever they are called.
-/

namespace Scriptlet

open Eval

/-- A ledger that was kept from the start, through all that hosts and evaluations have done. -/
inductive Ledger.Keeps : Ledger → World → Prop where
  | start : Keeps {} {}
  | openSession {l : Ledger} {w : World} (o : Options) : Keeps l w → o.scriptless = true →
      Keeps l (w.openSession o).2.2
  | within {l l' : Ledger} {w : World} {i : Nat} {session : Session} {s t : State} : Keeps l w →
      w.sessions[i]? = some session → w.state? i = some s → l.Path s l' t →
        Keeps l' (w.left i session t)
  | takeConsole {l : Ledger} {w : World} : Keeps l w → Keeps l w.takeConsole.2

/-- Nothing was issued by an arena yet but its root. -/
structure Ledger.Untouched (l : Ledger) (k : Nat) : Prop where
  issued : ∀ id, l.issued k id = 0
  running : l.running k = [⟨k, Arena.root, 0⟩]
  named : ∀ number, l.named k number = if number = 0 then some ⟨k, Arena.root, 0⟩ else none

/-- What is referred to in any session is what was meant, and nothing was issued by sessions to
come. -/
structure Ledger.Covers (l : Ledger) (w : World) : Prop where
  keeps : l.Keeps w
  state : ∀ i s, w.state? i = some s → l.Coherent s
  untouched : ∀ k, w.sessions.size ≤ k → l.Untouched k

namespace Ledger

variable {l l' : Ledger} {s t u : State} {w w' : World} {i : Nat} {α : Type}

/-- The scopes of a new session. -/
theorem coherent_new (scopes : s.scopes = .new s.realm.id) (untouched : l.Untouched s.realm.id)
    (made : ∀ r fn η k, s.heap.ClosureAt r fn η k →
      ∃ x, l.made r = some x ∧ l.named k η.number = some x ∧ x.realm = k ∧ x.slot = η.scope) :
    l.Coherent s := by
  have root : (s.scopes.record Arena.root).phase = .running := by rw [scopes]; rfl
  have first : l.latest s.realm.id Arena.root = ⟨s.realm.id, Arena.root, 0⟩ := by
    simp [latest, untouched.issued]
  refine ⟨⟨fun id η known => ?_, fun number above => ?_, fun id η θ known up => ?_, made⟩,
    fun x member => ?_, fun id runs => ?_⟩
  · rw [scopes] at known
    obtain ⟨rfl, rfl⟩ := Arena.handle?_new known
    rw [first, untouched.named]
    exact if_pos rfl
  · have later : 1 ≤ number := by rwa [scopes] at above
    rw [untouched.named, if_neg (by omega)]
  · rw [scopes] at known
    obtain ⟨rfl, rfl⟩ := Arena.handle?_new known
    cases up
  · rw [untouched.running, List.mem_singleton] at member
    subst member
    exact ⟨⟨first.symm, by simp [root]⟩, root⟩
  · obtain ⟨η, anchored⟩ := Record.running_iff.1 runs
    have known := Record.handle?_of_anchor? anchored
    rw [scopes] at known
    obtain ⟨rfl, -⟩ := Arena.handle?_new known
    rw [untouched.running, first]
    exact List.mem_singleton_self _

theorem Coherent.edits {given : Value → Prop} {a : Arena} (coherent : l.Coherent s)
    (edits : s.scopes.Edits given a) : l.Coherent { s with scopes := a } := by
  induction edits with
  | refl => exact coherent
  | tail _ edit ih => exact ih.edit edit

/-- What goes on in one session leaves alone what the others refer to. -/
theorem Coherent.elsewhere (coherent : l.Coherent u) (spares : l.Spares s l' t)
    (after : l'.Coherent t)
    (apart : u.realm.id ≠ s.realm.id) (console : List String) :
    l'.Coherent { u with heap := t.heap, console := console } := by
  have latest (id : ScopeId) : l'.latest u.realm.id id = l.latest u.realm.id id := by
    rw [Ledger.latest, Ledger.latest, spares.issued _ apart]
  have later {x : Issue} (denotes : x.Denotes l u) :
      x.Denotes l' { u with heap := t.heap, console := console } :=
    denotes_later denotes rfl (by rw [spares.issued _ apart]) denotes.allocated
  have named := spares.named _ apart
  refine ⟨⟨fun id η known => ?_, fun number above => ?_, fun id η θ known up => ?_, after.made⟩,
    fun x member => ?_, fun id runs => ?_⟩
  · show l'.named u.realm.id η.number = some (l'.latest u.realm.id id)
    rw [named, latest]
    exact coherent.named id η known
  · show l'.named u.realm.id number = none
    rw [named]
    exact coherent.fresh number above
  · show ∃ x, l'.above u.realm.id id = some x ∧ l'.named u.realm.id θ.number = some x ∧
      x.slot = θ.scope
    rw [named, spares.above _ apart]
    exact coherent.above id η θ known up
  · change x ∈ l'.running u.realm.id at member
    rw [spares.running _ apart] at member
    exact ⟨later (coherent.running x member).1, (coherent.running x member).2⟩
  · show l'.latest u.realm.id id ∈ l'.running u.realm.id
    rw [spares.running _ apart, latest]
    exact coherent.every id runs

namespace Covers

theorem start : Covers {} {} :=
  ⟨.start,
    fun i s there => by simp [World.state?] at there, fun _ _ => ⟨fun _ => rfl, rfl, fun _ => rfl⟩⟩

theorem made (covers : l.Covers w) (orderly : w.Orderly) {r : FunctionRef} {fn : Function}
    {η : Handle} {k : Nat} (there : w.heap.ClosureAt r fn η k) :
    ∃ x, l.made r = some x ∧ l.named k η.number = some x ∧ x.realm = k ∧ x.slot = η.scope := by
  have inside := (orderly.closures r fn η k there).1
  obtain ⟨s, found⟩ : ∃ s, w.state? k = some s :=
    Option.isSome_iff_exists.1 (by simp [World.state?, inside])
  have coherent := covers.state k s found
  obtain ⟨_, -, rfl⟩ := World.state?_eq found
  exact coherent.made r fn η k there

/-- A computation in a session. -/
theorem within {m : Eval α} (covers : l.Covers w) (orderly : w.Orderly)
    (ends : ∀ s t, w.state? i = some s → s.Orderly → (m s).EndsIn t → s.Traced t) :
    ∃ l' : Ledger, l'.Covers (w.within i m).2 := by
  rcases w.within_cases i m with same | ⟨session, s, t, found, there, ended, left⟩
  · rw [same]
    exact ⟨l, covers⟩
  obtain ⟨before, realm⟩ := orderly.state i s there
  obtain ⟨l', path, coherent, -, -⟩ := ends s t there before ended l (covers.state i s there)
  have spares := path.spares
  rw [left]
  refine ⟨l', .within covers.keeps found there path, fun j u there' => ?_, fun k far => ?_⟩
  · rcases World.state?_left found there' with ⟨rfl, rfl⟩ | ⟨other, s', earlier, rfl⟩
    · refine coherent.store (.refl _) rfl ?_
      obtain ⟨session', found', rfl⟩ := World.state?_eq there
      cases found.symm.trans found'
      exact spares.realm.symm
    · have id := (orderly.state j s' earlier).2
      exact (covers.state j s' earlier).elsewhere spares coherent (by rwa [id, realm]) t.console
  · simp only [World.left, Array.size_setIfInBounds] at far
    have inside := (Array.getElem?_eq_some_iff.1 found).1
    have apart : k ≠ s.realm.id := by omega
    obtain ⟨issued, running, named⟩ := covers.untouched k far
    exact ⟨fun id => by rw [spares.issued k apart, issued], by rw [spares.running k apart, running],
      fun number => by rw [spares.named k apart, named]⟩

theorem openSession {o : Options} (covers : l.Covers w) (orderly : w.Orderly)
    (pure : o.scriptless = true) : l.Covers (w.openSession o).2.2 := by
  have same := (Session.lending_prepare pure).same w.heap
  have keeps := Keeps.openSession o covers.keeps pure
  have shared {heap : Heap} (closures : w.heap.SameClosures heap) {j : Nat} {u : State}
      (there : World.state? { w with heap := heap } j = some u) : l.Coherent u := by
    rw [World.state?_share w heap w.console, Option.map_eq_some_iff] at there
    obtain ⟨s, earlier, rfl⟩ := there
    refine (covers.state j s earlier).store ?_ rfl rfl
    obtain ⟨_, -, rfl⟩ := World.state?_eq earlier
    exact closures
  obtain ⟨globals, host, methods, heap, made, ⟨c, opened⟩ | ⟨session, installed, id, -, opened⟩⟩ :=
    w.openSession_cases o
  · rw [made] at same
    rw [opened] at keeps ⊢
    exact ⟨keeps, fun i s => shared same, covers.untouched⟩
  · rw [made] at same
    rw [opened] at keeps ⊢
    refine ⟨keeps, fun i s there => ?_, fun k far => ?_⟩
    · rw [World.state?_push] at there
      split at there
      · cases there
        have edits :=
          (Session.editing_install (fun _ => True) trivial (fun _ _ => trivial) trivial).ok
            installed
        rw [← id] at edits
        let before : World := { w with heap := heap }
        have first : l.Coherent { before.start session with scopes := .new session.realm.id } := by
          refine coherent_new rfl (id ▸ covers.untouched _ (Nat.le_refl _)) fun r fn η k there => ?_
          exact covers.made orderly ((same r fn η k).1 there)
        exact first.edits edits
      · exact shared same there
    · rw [Array.size_push] at far
      exact covers.untouched k (by omega)

theorem step {asks : (α : Type) → Task α → Prop} (covers : l.Covers w) (orderly : w.Orderly)
    (step : w.Step asks w') : ∃ l' : Ledger, l'.Covers w' := by
  have sound {s : State} (coherent : l.Coherent s) (here : s.Orderly) :
      (confinement l s Set.univ).sound s :=
    ⟨⟨here, .refl _⟩, ⟨l, .refl l s, coherent⟩, fun _ _ _ => .self trivial⟩
  cases step with
  | openSession o pure => exact ⟨l, covers.openSession orderly pure⟩
  | ask i fuel task _ live =>
    refine covers.within orderly fun s t there here ended => ?_
    have starts : (confinement l s Set.univ).Starts task s :=
      ⟨sound (covers.state i s there) here, live s there, fun _ _ => .self trivial⟩
    exact (Contract.endsIn_run starts ended).2.2
  | declare i kind name v =>
    refine covers.within orderly fun s t there here ended => ?_
    have sat : (confinement l s Set.univ).Sat Arena.root Set.univ _ _ :=
      .onScopes (Arena.editing_declareOwn kind Arena.root name v)
    have ends := sat.ends (sound (covers.state i s there) here) here.tidy.root subset_rfl
    exact (ends.endsIn ended).2.2
  | build i b pure =>
    refine covers.within orderly ?_
    rintro s t there here (⟨_, ⟨⟩⟩ | ⟨_, ⟨⟩⟩)
    exact .store ((Blueprint.lending_build b pure).same s.heap) rfl rfl
  | takeConsole =>
    refine ⟨l, .takeConsole covers.keeps, fun i s there => ?_, covers.untouched⟩
    rw [World.takeConsole, World.state?_share w w.heap [], Option.map_eq_some_iff] at there
    obtain ⟨s, earlier, rfl⟩ := there
    obtain ⟨_, -, rfl⟩ := World.state?_eq earlier
    exact (covers.state i _ earlier).store (.refl _) rfl rfl

theorem reachable {asks : (α : Type) → Task α → Prop} (reachable : World.Reachable asks w) :
    ∃ l : Ledger, l.Covers w := by
  induction reachable with
  | refl => exact ⟨_, start⟩
  | tail before step ih =>
    obtain ⟨l, covers⟩ := ih
    exact covers.step (.reachable before) step

end Covers

end Ledger

/-- Whatever hosts and scripts do with any number of sessions, a session runs closures of its own
only, and refers to the scopes that were meant. -/
theorem World.confined {asks : (α : Type) → Task α → Prop} {w : World}
    (reachable : w.Reachable asks) :
    ∃ l : Ledger, l.Keeps w ∧ ∀ i s, w.state? i = some s →
      s.realm.id = i ∧ l.Coherent s ∧ l.Means s ∧
      ∀ (α : Type) (task : Task α) (fuel : Nat),
        (∀ env ∈ task.env?, (s.scopes.record env).phase = .running) →
        task.EachFrom
          (fun _ nested t o => l.Confines s ({n | n ∈ task.nodes} ∪ s.ownFunctions) nested t o)
            fuel s := by
  obtain ⟨l, covers⟩ := Ledger.Covers.reachable reachable
  have orderly := World.Orderly.reachable reachable
  refine ⟨l, covers.keeps, fun i s there => ?_⟩
  obtain ⟨here, realm⟩ := orderly.state i s there
  have coherent := covers.state i s there
  exact ⟨realm, coherent, coherent.toCharts.means here,
    fun α task fuel live => task.eachFrom_confines fuel here coherent live⟩

/-- A function that one session makes and another one is given. -/
def lentFunction : Function :=
  ⟨.declaration, some ⟨"f", ⟨9, 10⟩⟩, [], .block ⟨[], ⟨13, 15⟩⟩, ⟨0, 15⟩⟩

/-- Sessions that reclaim scopes, and that refer to nothing in between. -/
def lendingOptions : Options := { standard := false, outside := some fun _ => [] }

/-- A second session calls a closure of the first one. -/
theorem World.confined_call :
    ∃ (w : World) (s : State) (r : FunctionRef) (l : Ledger), w.Reachable (fun _ _ => True) ∧
      w.state? 1 = some s ∧ (Task.call (.function r) .undefined []).CallsForeign s "f" ∧ l.Keeps w ∧
      l.Coherent s ∧ l.Means s ∧
      (Task.call (.function r) .undefined []).EachFrom (fun _ nested t o =>
        l.Confines s ({n | n ∈ (Task.call (.function r) .undefined []).nodes} ∪ s.ownFunctions)
          nested t o)
        5 s := by
  let two := (World.openSession (World.openSession {} lendingOptions).2.2 lendingOptions).2.2
  let task : Task Value := .expr (.function ⟨0, 15⟩ lentFunction) Arena.root
  have opened : World.Reachable (fun _ _ => True) two :=
    .tail (.single (.openSession lendingOptions rfl)) (.openSession lendingOptions rfl)
  have orderly := World.Orderly.reachable opened
  have reachable : World.Reachable (fun _ _ => True) (two.within 0 (task.run 1)).2 := by
    refine opened.tail (.ask 0 1 task trivial fun s there env => ?_)
    rintro ⟨⟩
    exact (orderly.state 0 s there).1.tidy.root
  have grows : (two.within 0 (task.run 1)).2.heap.functions.size ≠ two.heap.functions.size := by
    decide +kernel
  rcases two.within_cases 0 (task.run 1) with same | ⟨session, s, t, found, there, ended, left⟩
  · exact absurd (by rw [same]) grows
  have made : task.run 1 s =
    .ok (.function s.heap.nextFunction) (s.withClosure "f" lentFunction Arena.root) := rfl
  obtain rfl : t = s.withClosure "f" lentFunction Arena.root := by
    rcases ended with ⟨a, done⟩ | ⟨f, done⟩
    · rw [made] at done
      cases done
      rfl
    · rw [made] at done
      cases done
  obtain ⟨u, second⟩ : ∃ u, two.state? 1 = some u := Option.isSome_iff_exists.1 (by decide +kernel)
  rw [left] at reachable
  have here : (two.left 0 session (s.withClosure "f" lentFunction Arena.root)).state? 1 =
      some { u with
        heap := (s.withClosure "f" lentFunction Arena.root).heap
        console := s.console } := by
    obtain ⟨other, at_, rfl⟩ := World.state?_eq second
    simp only [World.state?, World.left, Array.getElem?_setIfInBounds_ne (by decide : 0 ≠ 1), at_,
      Option.map_some]
    rfl
  obtain ⟨l, keeps, confined⟩ := World.confined reachable
  obtain ⟨realm, coherent, means, each⟩ := confined 1 _ here
  refine ⟨_, _, s.heap.nextFunction, l, reachable, here, ?_, keeps, coherent, means, ?_⟩
  · let η := (s.scopes.capture Arena.root s.isAlive).1
    refine ⟨{ name := "f", callable := .closure lentFunction η s.realm.id }, lentFunction, η,
      s.realm.id, ?_, rfl, ?_, rfl⟩
    · simp [Heap.function?, State.withClosure, Heap.newFunction, Heap.nextFunction, η]
    · rw [realm, (orderly.state 0 s there).2]
      decide
  · exact each Value (.call (.function s.heap.nextFunction) .undefined []) 5 (by simp [Task.env?])

end Scriptlet
