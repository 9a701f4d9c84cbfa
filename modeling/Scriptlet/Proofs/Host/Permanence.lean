import Scriptlet.Proofs.Eval.Monad
import Scriptlet.Proofs.Eval.Permanence
import Scriptlet.Proofs.Host.World

/-!
A run answers the very value that its host gave.

The host's value is a constant of the root scope, and the root stays allocated. So no script can
change what its name stands for.
-/

namespace Scriptlet

open Eval

theorem Arena.read_own {a : Arena} {id : ScopeId} {name : String} {b : Binding}
    (inside : id.index < a.records.size) (own : (a.record id).bindings.get? name = some b) :
    a.read id name = .ok b.value := by
  obtain ⟨n, fuel⟩ : ∃ n, a.records.size = n + 1 := ⟨a.records.size - 1, by omega⟩
  have found : a.lookup? id name = some (id, b) := by
    unfold lookup?
    rw [fuel]
    simp only [lookupFrom, own]
  simp only [read, found]

theorem Arena.Op.bind_ok {α β : Type} {op : Op α} {next : α → Op β} {a b : Arena} {y : β}
    (done : (op >>= next) a = .ok y b) : ∃ x c, op a = .ok x c ∧ next x c = .ok y b := by
  change EStateM.bind op next a = .ok y b at done
  unfold EStateM.bind at done
  split at done
  · exact ⟨_, _, ‹_›, done⟩
  · cases done

/-- The root of a session that could be opened has the host's value as a constant. -/
theorem Session.host_of_install {globals : Table Value} {host : Value} {a b : Arena}
    (rooted : a.Rooted)
    (installed : install globals host a = .ok () b) :
    b.Rooted ∧ (b.record Arena.root).bindings.get? hostName = some ⟨host, .const⟩ := by
  refine
    ⟨((editing_install (fun _ => True) trivial (fun _ _ => trivial) trivial).ok installed).rooted
    rooted, ?_⟩
  obtain ⟨_, c, first, installed⟩ := Arena.Op.bind_ok installed
  obtain ⟨_, d, second, last⟩ := Arena.Op.bind_ok installed
  have before : d.Rooted := by
    refine ((editing_declareAll (fun _ => True) _ fun _ _ => trivial).ok second).rooted ?_
    exact ((Arena.editing_declareOwn ..).ok first).rooted rooted
  have inside : Arena.root.index < d.records.size := before.inside
  unfold Arena.declareOwn at last
  split at last
  · cases last
  · cases last
    rw [Arena.bindings_bind_self inside, Table.get?_insert_self]

theorem World.host_of_openSession {w w' : World} {o : Options} {host : Value}
    (opened : w.openSession o = (host, none, w')) :
    ∃ session, w'.sessions = w.sessions.push session ∧ session.scopes.Rooted ∧
      (session.scopes.record Arena.root).bindings.get? hostName = some ⟨host, .const⟩ := by
  obtain ⟨globals, given, methods, heap, -, ⟨c, same⟩ | ⟨session, installed, -, -, same⟩⟩ :=
    w.openSession_cases o
  · rw [same] at opened
    cases opened
  · rw [same] at opened
    cases opened
    obtain ⟨rooted, own⟩ := Session.host_of_install (.of_tidy (Arena.tidy_new _)) installed
    exact ⟨session, rfl, rooted, own⟩

/-- The state in which the program of a run starts has the host's value as a constant. -/
theorem World.host_of_start {o : Options} {host : Value} {w : World} {s : State}
    (opened : World.openSession {} o = (host, none, w)) (there : w.state? 0 = some s) :
    s.scopes.Rooted ∧
    (s.scopes.record Arena.root).bindings.get? hostName = some ⟨host, .const⟩ := by
  obtain ⟨session, pushed, rooted, own⟩ := World.host_of_openSession opened
  obtain ⟨session', found, rfl⟩ := World.state?_eq there
  simp only [pushed] at found
  cases found
  exact ⟨rooted, own⟩

/-- A source text is run as a program, if it is one. -/
theorem Eval.source_ok {fuel : Nat} {options : ParseOptions} {text : String} {s t : State}
    {v : Value}
    (done : source fuel options text s = .ok v t) :
    ∃ p, parseProgram text options = .ok p ∧ (Task.program p).run fuel s = .ok v t := by
  unfold source at done
  cases parsed : parseProgram text options with
  | error e =>
    simp only [parsed] at done
    cases done
  | ok p =>
    simp only [parsed] at done
    exact ⟨p, rfl, done⟩

theorem Eval.rootValue_own {s : State} {name : String} {b : Binding} (rooted : s.scopes.Rooted)
    (own : (s.scopes.record Arena.root).bindings.get? name = some b) :
    rootValue name s = .ok b.value s := by
  have inside : Arena.root.index < s.scopes.records.size := rooted.inside
  have value := Arena.read_own inside own
  simp only [rootValue, Bind.bind, Eval.bind, Eval.gets, value]
  rfl

/-- What is left of the host's value after an evaluation. -/
theorem Task.host_of_run {α : Type} {fuel : Nat} {task : Task α} {s t : State}
    {host : Value} {v : α}
    (rooted : s.scopes.Rooted)
    (own : (s.scopes.record Arena.root).bindings.get? hostName = some ⟨host, .const⟩)
    (done : task.run fuel s = .ok v t) :
    t.scopes.Rooted ∧
      ∃ b, (t.scopes.record Arena.root).bindings.get? hostName = some b ∧ b.value = host := by
  obtain ⟨after, lasts⟩ := (task.moves (task.passes_end (.inl ⟨v, done⟩))).lasts_root rooted
  obtain ⟨b, there, -, value⟩ := lasts.permanent hostName _ own
  exact ⟨after, b, there, value rfl⟩

/-- A run that ends with a value ends with the value that the host gave. -/
theorem host_of_run {fuel : Nat} {o : Options} {text : String} {r host : Value} {w : World}
    (done : run fuel o text = (.done r, host, w)) : r = host := by
  unfold run at done
  cases opened : World.openSession {} o with
  | mk given rest =>
    obtain ⟨cause, w'⟩ := rest
    cases cause with
    | some c =>
      simp only [opened] at done
      cases done
    | none =>
      simp only [opened, Prod.mk.injEq] at done
      obtain ⟨ending, rfl, -⟩ := done
      obtain ⟨s, t, there, ended⟩ := World.within_done ending
      obtain ⟨rooted, own⟩ := World.host_of_start opened there
      obtain ⟨_, u, first, last⟩ := Eval.bind_ok ended
      obtain ⟨v, u', executed, rest⟩ := Eval.bind_ok first
      cases rest
      obtain ⟨p, -, ran⟩ := Eval.source_ok executed
      obtain ⟨after, b, left, rfl⟩ := Task.host_of_run rooted own ran
      rw [Eval.rootValue_own after left] at last
      cases last
      rfl

/-! ### Sessions -/

/-- An operation that comes down to those of an arena. -/
structure Arena.Op.Changing {α : Type} (op : Op α) : Prop where
  intro ::
  run : ∀ a, Relation.ReflTransGen Change a (op.left a)

theorem Arena.Op.changing_bind {α β : Type} {op : Op α} {next : α → Op β} (first : op.Changing)
    (then_ : ∀ x, (next x).Changing) : Op.Changing (op >>= next) := by
  constructor
  intro a
  have before := first.run a
  show Relation.ReflTransGen Change a (Op.left (EStateM.bind op next) a)
  unfold Op.left EStateM.bind at *
  cases done : op a with
  | error c b =>
    rw [done] at before
    exact before
  | ok x b =>
    rw [done] at before
    exact before.trans ((then_ x).run b)

theorem Arena.changing_declareOwn (kind : DeclKind) (id : ScopeId) (name : String) (v : Value) :
    (declareOwn kind id name v).Changing :=
  ⟨fun _ => .single (.declareOwn kind id name v)⟩

theorem Session.changing_declareAll (kind : DeclKind) (list : List (String × Value)) :
    (declareAll kind list).Changing := by
  induction list with
  | nil => exact ⟨fun _ => .refl⟩
  | cons entry rest ih => exact Arena.Op.changing_bind (Arena.changing_declareOwn ..) fun _ => ih

theorem Session.changing_install (globals : Table Value) (host : Value) :
    (install globals host).Changing :=
  Arena.Op.changing_bind (Arena.changing_declareOwn ..) fun _ =>
    Arena.Op.changing_bind (changing_declareAll ..) fun _ => Arena.changing_declareOwn ..

namespace State

variable {s t : State}

theorem Moves.changes {a : Arena} (changes : Relation.ReflTransGen Arena.Change s.scopes a) :
    s.Moves { s with scopes := a } := by
  induction changes with
  | refl => exact .refl
  | tail _ change ih => exact ih.tail (.operation change)

theorem Moves.onScopes {α : Type} {op : Arena.Op α} (changing : op.Changing)
    (ends : (Eval.onScopes op s).EndsIn t) : s.Moves t := by
  have same : t = { s with scopes := op.left s.scopes } := by
    obtain ⟨heap, scopes, realm, memory, depth, console⟩ := s
    unfold Eval.onScopes at ends
    unfold Arena.Op.left
    simp only at ends ⊢
    cases done : op scopes with
    | ok a b =>
      rw [done] at ends
      rcases ends with ⟨_, ⟨⟩⟩ | ⟨_, ⟨⟩⟩
      rfl
    | error c b =>
      rw [done] at ends
      rcases ends with ⟨_, ⟨⟩⟩ | ⟨_, ⟨⟩⟩
      rfl
  rw [same]
  exact .changes (changing.run s.scopes)

theorem Arises.moves (arises : s.Arises) (moves : s.Moves t) : t.Arises := by
  obtain ⟨start, fresh, before⟩ := arises
  exact ⟨start, fresh, before.trans moves⟩

theorem Arises.elsewhere (arises : s.Arises) (same : t.scopes = s.scopes) : t.Arises := by
  exact arises.moves (.elsewhere same)

end State

/-- All that happens between the computations of a session are moves of its interpreter. -/
theorem World.arises_of_reachable {asks : (α : Type) → Task α → Prop} {w : World} {i : Nat}
    {s : State}
    (reachable : World.Reachable asks w) (there : w.state? i = some s) : s.Arises := by
  induction reachable generalizing i s with
  | refl => simp [state?] at there
  | @tail w w' _ step ih =>
    have within {α : Type} {j : Nat} {m : Eval α}
        (moves : ∀ s t, w.state? j = some s → s.Arises → (m s).EndsIn t → t.Arises)
        (there : (w.within j m).2.state? i = some s) : s.Arises := by
      rcases w.within_cases j m with same | ⟨session, s', t, found, start, ended, left⟩
      · rw [same] at there
        exact ih there
      · rw [left] at there
        rcases state?_left found there with ⟨rfl, rfl⟩ | ⟨-, s'', earlier, rfl⟩
        · exact (moves s' t start (ih start) ended).elsewhere rfl
        · exact (ih earlier).elsewhere rfl
    have share {heap : Heap} {console : List String}
        (there : World.state? { w with heap := heap, console := console } i = some s) :
          s.Arises := by
      rw [state?_share, Option.map_eq_some_iff] at there
      obtain ⟨s, earlier, rfl⟩ := there
      exact (ih earlier).elsewhere rfl
    cases step with
    | openSession o pure =>
      obtain ⟨globals, host, methods, heap, -, ⟨c, same⟩ | ⟨session, installed, -, -, same⟩⟩ :=
        w.openSession_cases o
      · rw [same] at there
        exact share there
      · rw [same, state?_push] at there
        split at there
        · cases there
          have changes := (Session.changing_install globals host).run (Arena.new w.sessions.size)
          simp only [Arena.Op.left, installed] at changes
          let fresh : State :=
            { World.start { w with heap := heap } session with scopes := .new w.sessions.size }
          exact ⟨fresh, ⟨_, rfl⟩, .changes changes⟩
        · exact share there
    | ask j fuel task _ live =>
      refine within (fun s t _ arises ended => ?_) there
      exact arises.moves (task.moves (task.passes_end ended))
    | declare j kind name v =>
      refine within (fun s t _ arises ended => ?_) there
      exact arises.moves (.onScopes (Arena.changing_declareOwn ..) ended)
    | build j b pure =>
      refine within (fun s t _ arises ended => arises.elsewhere ?_) there
      rcases ended with ⟨_, ⟨⟩⟩ | ⟨_, ⟨⟩⟩
      rfl
    | takeConsole => exact share there

def Ending.isDone {α : Type} : Ending α → Bool
  | .done _ => true
  | .failed _ | .exhausted => false

theorem Ending.done_of_isDone {α β γ : Type} {x : Ending α × β × γ} (done : x.1.isDone = true) :
    ∃ a b c, x = (.done a, b, c) := by
  obtain ⟨ending, b, c⟩ := x
  cases ending with
  | done a => exact ⟨a, b, c, rfl⟩
  | failed f => cases done
  | exhausted => cases done

/-- As long as a record stays allocated its bindings are permanent, in all sessions that hosts can
open and all through their evaluations; and so a run that ends with a value ends with the very value
that its host gave. -/
theorem bindings_permanent :
    (∀ (w : World) (i : Nat) (s : State), World.Reachable (fun _ _ => True) w →
      w.state? i = some s →
      s.Arises) ∧
    (∀ (α : Type) (fuel : Nat) (task : Task α) (s t : State), task.Passes fuel s t → s.Moves t) ∧
    (∀ (s t : State) (id : ScopeId), s.Arises → State.Lasts id s t →
      (s.scopes.record id).Permanent (t.scopes.record id)) ∧
    (∀ (fuel : Nat) (o : Options) (text : String) (r host : Value) (w : World),
      run fuel o text = (.done r, host, w) → r = host) := by
  refine ⟨?_, ?_, ?_, ?_⟩
  · intro w i s reachable there
    exact World.arises_of_reachable reachable there
  · intro α fuel task s t passes
    exact task.moves passes
  · intro s t id _ lasts
    exact lasts.permanent
  · intro fuel o text r host w done
    exact host_of_run done

theorem bindings_permanent_instance :
    (∃ (w : World) (s : State), World.Reachable (fun _ _ => True) w ∧ w.state? 0 = some s ∧
      State.Lasts Arena.root s (s.opened .block Arena.root) ∧
      (s.scopes.record Arena.root).Permanent
        ((s.opened .block Arena.root).scopes.record Arena.root)) ∧
    ∃ r host w, run 9 { standard := false } "$runjs.a = 1" = (.done r, host, w) ∧ r = host := by
  obtain ⟨sessions, evaluations, permanent, hosts⟩ := bindings_permanent
  refine ⟨?_, ?_⟩
  · have world :
        World.Reachable (fun _ _ => True) (World.openSession {} { standard := false }).2.2 :=
      .single (.openSession { standard := false } rfl)
    have lasting : ((World.openSession {} { standard := false }).2.2.state? 0).any (fun s =>
        decide (s.scopes.Allocates Arena.root ∧
          (s.opened .block Arena.root).scopes.Allocates Arena.root)) = true := by
      decide +kernel
    obtain ⟨s, there, lasting⟩ := (Option.any_eq_true ..).1 lasting
    obtain ⟨before, after⟩ := of_decide_eq_true lasting
    have lasts : State.Lasts Arena.root s (s.opened .block Arena.root) :=
      .single ⟨.operation (.push ..), before, after⟩
    exact ⟨_, s, world, there, lasts, permanent _ _ _ (sessions _ 0 s world there) lasts⟩
  · have done : Ending.isDone (run 9 { standard := false } "$runjs.a = 1").1 = true := by
      decide +kernel
    obtain ⟨r, host, w, done⟩ := Ending.done_of_isDone done
    exact ⟨r, host, w, done, hosts _ _ _ _ _ _ done⟩

end Scriptlet
