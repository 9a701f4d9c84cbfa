import Scriptlet.Proofs.Eval.Discipline
import Scriptlet.Proofs.Host.World

/-!
Sessions keep the discipline of scopes and calls.

Main statement: in every state that an interpreter can get to, every evaluation leaves the running
scopes and the depth of calls as it found them, and no scope in use is ever freed on the way.
-/

namespace Scriptlet

open Eval

/-- Between computations all sessions of a world are in order. -/
structure World.Orderly (w : World) : Prop where
  state : ∀ i s, w.state? i = some s → s.Orderly ∧ s.realm.id = i
  /-- Closures belong to sessions that have been opened, and so do the scopes that they were made
  in. -/
  closures : ∀ r fn η realm, w.heap.ClosureAt r fn η realm →
    realm < w.sessions.size ∧ η.realm? = some realm

namespace World.Orderly

variable {w w' : World} {i : Nat} {α : Type}

theorem empty : World.Orderly {} := by
  refine ⟨fun i s there => ?_, fun r fn η realm there => ?_⟩
  · simp [state?] at there
  · obtain ⟨f, found, -⟩ := there
    simp [Heap.function?] at found

/-- The discipline as it holds of a computation in a session. -/
theorem within {m : Eval α} (orderly : w.Orderly)
    (ends : ∀ s t, w.state? i = some s → s.Orderly → (m s).EndsIn t → t.Orderly ∧ s.Settled t) :
    (w.within i m).2.Orderly := by
  rcases w.within_cases i m with same | ⟨session, s, t, found, there, ended, left⟩
  · rwa [same]
  obtain ⟨before, realm⟩ := orderly.state i s there
  obtain ⟨after, settled⟩ := ends s t there before ended
  obtain ⟨session', found', start⟩ := state?_eq there
  rw [found] at found'
  cases found'
  rw [left]
  have foreign (r : FunctionRef) (fn : Function) (η : Handle) (k : Nat) (other : k ≠ i)
      (closure : t.heap.ClosureAt r fn η k) : w.heap.ClosureAt r fn η k := by
    have earlier := settled.foreign r fn η k (by rwa [realm]) closure
    rwa [start] at earlier
  refine ⟨fun j u there' => ?_, fun r fn η k closure => ⟨?_, after.homes r fn η k closure⟩⟩
  · rcases state?_left found there' with ⟨rfl, rfl⟩ | ⟨other, s', earlier, rfl⟩
    · have realms : t.realm = session.realm := by rw [settled.realm, start, World.start]
      have depths : t.depth = 0 := by rw [settled.depth, start, World.start]
      rw [← realms, ← depths]
      exact ⟨after, by rw [settled.realm, realm]⟩
    · obtain ⟨old, id⟩ := orderly.state j s' earlier
      refine ⟨old.foreign t.console after.homes fun r fn η closure => ?_, id⟩
      obtain ⟨_, -, rfl⟩ := state?_eq earlier
      exact foreign r fn η _ (by rwa [id]) closure
  · simp only [World.left, Array.size_setIfInBounds]
    by_cases own : k = i
    · rw [own]
      exact (Array.getElem?_eq_some_iff.1 found).1
    · exact (orderly.closures r fn η k (foreign r fn η k own closure)).1

/-- The heap and the console change, but no closures are made. -/
theorem share {h : Heap} (orderly : w.Orderly) (same : w.heap.SameClosures h)
    (console : List String) :
    World.Orderly { w with heap := h, console := console } := by
  have closures (r : FunctionRef) (fn : Function) (η : Handle) (k : Nat)
      (closure : h.ClosureAt r fn η k) :=
    orderly.closures r fn η k ((same r fn η k).1 closure)
  refine ⟨fun i s there => ?_, closures⟩
  rw [state?_share, Option.map_eq_some_iff] at there
  obtain ⟨s, earlier, rfl⟩ := there
  obtain ⟨old, id⟩ := orderly.state i s earlier
  refine ⟨old.foreign console (fun r fn η k there => (closures r fn η k there).2) ?_, id⟩
  obtain ⟨_, -, rfl⟩ := state?_eq earlier
  exact fun r fn η there => (same r fn η _).1 there

/-- The scopes of a new session. -/
theorem installed {s : State} (fresh : State.Orderly { s with scopes := .new s.realm.id })
    (scopes : (Arena.new s.realm.id).Edits (fun _ => True) s.scopes) : s.Orderly := by
  have sound : (discipline (.new s.realm.id)).sound { s with scopes := .new s.realm.id } :=
    ⟨fresh, .refl _⟩
  refine (Contract.Sat.edits sound (Relation.ReflTransGen.mono ?_ _ _ scopes)).1.1
  exact fun _ _ => Arena.Edit.mono fun _ _ => inferInstance

theorem openSession {o : Options} (orderly : w.Orderly) (pure : o.scriptless = true) :
    (w.openSession o).2.2.Orderly := by
  have lending := (Session.lending_prepare pure).same w.heap
  obtain ⟨globals, host, methods, heap, made, ⟨c, same⟩ | ⟨session, installed, id, memory, same⟩⟩ :=
    w.openSession_cases o
  · rw [made] at lending
    rw [same]
    exact orderly.share lending w.console
  · rw [made] at lending
    rw [same]
    have shared := orderly.share lending w.console
    have scopes :=
      (Session.editing_install (fun _ => True) trivial (fun _ _ => trivial) trivial).ok installed
    refine ⟨fun i s there => ?_, fun r fn η k closure => ?_⟩
    · rw [state?_push] at there
      split at there
      · rename_i new
        cases there
        refine ⟨World.Orderly.installed ?_ (id.symm ▸ scopes), by rw [new]; exact id⟩
        refine .fresh rfl memory rfl (fun r fn η k there => (shared.closures r fn η k there).2) ?_
        -- closures of the new session's realm would be older than it
        intro r fn η closure
        have old := (shared.closures r fn η _ closure).1
        rw [World.start, id] at old
        exact Nat.lt_irrefl _ old
      · exact shared.state i s there
    · obtain ⟨old, home⟩ := shared.closures r fn η k closure
      rw [Array.size_push]
      exact ⟨Nat.lt_succ_of_lt old, home⟩

theorem step {asks : (α : Type) → Task α → Prop} (orderly : w.Orderly) (step : w.Step asks w') :
    w'.Orderly := by
  cases step with
  | openSession o pure => exact orderly.openSession pure
  | ask i fuel task _ live =>
    refine orderly.within fun s t there here ended => ?_
    have starts : (discipline s.scopes).Starts task s :=
      ⟨⟨here, .refl _⟩, live s there, fun _ _ => trivial⟩
    have done := Contract.endsIn_run starts ended
    exact ⟨done.1.1, done.2⟩
  | declare i kind name v =>
    refine orderly.within ?_
    intro s t there here ended
    have sat : (discipline s.scopes).Sat Arena.root Set.univ _ _ :=
      .onScopes (Arena.editing_declareOwn kind Arena.root name v)
    have done := (sat.ends ⟨here, .refl _⟩ here.tidy.root subset_rfl).endsIn ended
    exact ⟨done.1.1, done.2⟩
  | build i b pure =>
    refine orderly.within ?_
    rintro s t there here (⟨_, ⟨⟩⟩ | ⟨_, ⟨⟩⟩)
    exact here.heap ((Blueprint.lending_build b pure).same s.heap)
  | takeConsole => exact orderly.share (.refl _) []

theorem reachable {asks : (α : Type) → Task α → Prop} (reachable : World.Reachable asks w) :
    w.Orderly := by
  induction reachable with
  | refl => exact empty
  | tail _ step ih => exact ih.step step

end World.Orderly

/-- The states that an interpreter can get to: those between the computations of its session, and
those that evaluations in running scopes go through. -/
inductive State.Reachable : State → Prop where
  | session {w : World} {i : Nat} {s : State} :
      World.Reachable (fun _ _ => True) w → w.state? i = some s → Reachable s
  | passes {α : Type} {task : Task α} {fuel : Nat} {s t : State} : Reachable s →
      (∀ env ∈ task.env?, (s.scopes.record env).phase = .running) → task.Passes fuel s t →
        Reachable t

/-- The same scopes run, at the same places. -/
structure Arena.SameRunning (a b : Arena) : Prop where
  phase : ∀ id, (b.record id).phase = .running ↔ (a.record id).phase = .running
  kind : ∀ id, (a.record id).phase = .running → (b.record id).kind = (a.record id).kind
  parent : ∀ id, (a.record id).phase = .running → (b.record id).parent = (a.record id).parent

/-- What holds when an evaluation starts or ends in `t` that is nested in one that started in
`s`. -/
structure State.InOrder (s : State) {α : Type} (task : Task α) (t : State) : Prop where
  own : ∀ env ∈ task.env?, (t.scopes.record env).phase = .running ∧ t.scopes.Stands env
  outer : ∀ env, (s.scopes.record env).phase = .running →
    (t.scopes.record env).phase = .running ∧ t.scopes.Stands env
  /-- The calls that are counted are those of functions whose scopes run. -/
  depth : t.depth = t.scopes.openCalls.length
  shallow : t.depth ≤ t.realm.maxDepth

namespace State

variable {s t : State} {α : Type}

theorem Settled.sameRunning (settled : s.Settled t) : s.scopes.SameRunning t.scopes :=
  ⟨fun id => ⟨settled.running id, settled.grown.running⟩, settled.grown.kind, settled.grown.parent⟩

theorem Orderly.inOrder {task : Task α} (starts : (discipline s.scopes).Starts task t) :
    s.InOrder task t := by
  obtain ⟨⟨orderly, grown⟩, live, -⟩ := starts
  exact ⟨fun env here => ⟨live env here, orderly.stands (live env here)⟩,
    fun env running => ⟨grown.running running, orderly.stands (grown.running running)⟩,
    orderly.depth, orderly.shallow⟩

theorem Reachable.orderly (reachable : s.Reachable) : s.Orderly := by
  induction reachable with
  | session world there => exact ((World.Orderly.reachable world).state _ _ there).1
  | @passes _ task fuel s t _ live passes ih =>
    have starts : (discipline s.scopes).Starts task s := ⟨⟨ih, .refl _⟩, live, fun _ _ => trivial⟩
    exact (Contract.sound_of_passes starts passes).1

theorem Reachable.ended {task : Task α} {fuel : Nat} (reachable : s.Reachable)
    (live : ∀ env ∈ task.env?, (s.scopes.record env).phase = .running)
    (ends : (task.run fuel s).EndsIn t) : t.Reachable :=
  .passes reachable live (task.passes_end ends)

/-- However an evaluation ends, the running scopes and the depth of calls are what they were; and
all through it the scopes in use stand, and the calls that are counted are those that run. -/
theorem Reachable.disciplined (reachable : s.Reachable) (task : Task α)
    (live : ∀ env ∈ task.env?, (s.scopes.record env).phase = .running) (fuel : Nat) :
    (∀ t, (task.run fuel s).EndsIn t → s.scopes.SameRunning t.scopes ∧ t.depth = s.depth) ∧
      task.Always (fun _ nested t => s.InOrder nested t) fuel s := by
  have starts : (discipline s.scopes).Starts task s :=
    ⟨⟨reachable.orderly, .refl _⟩, live, fun _ _ => trivial⟩
  refine ⟨fun t ended => ?_, ?_⟩
  · have ends := Contract.ends_run fuel task starts
    have settled : s.Settled t := by
      rcases ended with ⟨a, ended⟩ | ⟨f, ended⟩
      · rw [ended] at ends
        exact ends.2.1
      · rw [ended] at ends
        exact ends.2.1
    exact ⟨settled.sameRunning, settled.depth⟩
  · exact Contract.always_of_starts (fun _ _ _ starts => Orderly.inOrder starts) fuel task starts

/-- A function that a callback makes outlives the scope of the callback, and another one that is
called throws, which is caught. -/
def capturedText : String :=
  "let k = [1].map(n => () => n); try { (function () { throw k[0](); })(); } catch (e) { e; }"

/-- What the interpreter refers to at the ends of the scopes of `capturedText`: methods, and
functions and arrays that it is about to use. -/
def capturedOutside (end_ : Nat) : List Value :=
  (List.range 50).map (fun i => .function ⟨i⟩) ++
    match end_ with
    | 0 => [.array ⟨0⟩, .function ⟨50⟩, .function ⟨51⟩]
    | 1 | 2 => [.function ⟨52⟩]
    | _ => []

def capturedOptions : Options := { standard := false, outside := some capturedOutside }

/-- The released records and the free slots at the end of a run. -/
def slotsAfter? : Outcome Value → Option (List ScopeId × List ScopeId)
  | .ok _ t => some (t.scopes.released, t.scopes.free)
  | _ => none

/-- The scope of the callback stays, and those of the block, of the calls and of the handler are
free. -/
theorem Reachable.disciplined_captured :
    ∃ (s : State) (p : Program), s.Reachable ∧ parseProgram capturedText {} = .ok p ∧
      (∃ t, ((Task.program p).run 40 s).EndsIn t ∧ s.scopes.SameRunning t.scopes ∧
        t.depth = s.depth ∧
        t.scopes.released = [⟨1⟩] ∧ t.scopes.free = [⟨2⟩, ⟨3⟩, ⟨4⟩]) ∧
      (Task.program p).Always (fun _ nested t => s.InOrder nested t) 40 s := by
  have world : World.Reachable (fun _ _ => True) (World.openSession {} capturedOptions).2.2 :=
    .single (.openSession capturedOptions rfl)
  have ran : ((World.openSession {} capturedOptions).2.2.state? 0).any (fun s =>
      (parseProgram capturedText {}).toOption.any fun p =>
        slotsAfter? ((Task.program p).run 40 s) == some ([⟨1⟩], [⟨2⟩, ⟨3⟩, ⟨4⟩])) = true := by
    decide +kernel
  obtain ⟨s, there, ran⟩ := (Option.any_eq_true ..).1 ran
  obtain ⟨p, parsed, ran⟩ := (Option.any_eq_true ..).1 ran
  have reachable : s.Reachable := .session world there
  have live : ∀ env ∈ (Task.program p).env?, (s.scopes.record env).phase = .running := by
    rintro _ ⟨⟩
    exact reachable.orderly.tidy.root
  obtain ⟨ends, always⟩ := reachable.disciplined (Task.program p) live 40
  have parsed : parseProgram capturedText {} = .ok p := by
    cases done : parseProgram capturedText {} with
    | error e => simp [done, Except.toOption] at parsed
    | ok q =>
      rw [done] at parsed
      cases parsed
      rfl
  have slots := eq_of_beq ran
  unfold slotsAfter? at slots
  split at slots
  · rename_i v t done
    have ended : ((Task.program p).run 40 s).EndsIn t := .inl ⟨v, done⟩
    obtain ⟨same, depth⟩ := ends t ended
    obtain ⟨released, free⟩ := Prod.mk.inj (Option.some.inj slots)
    exact ⟨s, p, reachable, parsed, ⟨t, ended, same, depth, released, free⟩, always⟩
  · cases slots

end State

end Scriptlet
