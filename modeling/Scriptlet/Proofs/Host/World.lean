import Scriptlet.Host.Session
import Scriptlet.Proofs.Eval.Whole

/-!
What hosts do with their sessions.

A host opens sessions, asks them for tasks, declares names and builds values. Script functions are
only made by scripts, so the values that a host starts from have none.
-/

namespace Scriptlet

/-! ### Values without script functions -/

/-- A computation that makes no closures. -/
structure Lending {α : Type} (m : StateM Heap α) : Prop where
  intro ::
  same : ∀ h : Heap, h.SameClosures (m h).2

namespace Lending

variable {α β : Type}

theorem run {m : StateM Heap α} (lending : Lending m) (h : Heap) : h.Lends (m h).2 :=
  (lending.same h).lends

theorem pure (a : α) : Lending (Pure.pure a : StateM Heap α) :=
  ⟨.refl⟩

theorem bind {m : StateM Heap α} {f : α → StateM Heap β} (first : Lending m)
    (then_ : ∀ a, Lending (f a)) : Lending (m >>= f) :=
  ⟨fun h => (first.same h).trans ((then_ (m h).1).same (m h).2)⟩

theorem newArray (elements : Array Value) :
    Lending (modifyGet (·.newArray elements) : StateM Heap ArrayRef) :=
  ⟨.refl⟩

theorem newObject (o : Object) : Lending (modifyGet (·.newObject o) : StateM Heap ObjectRef) :=
  ⟨.refl⟩

theorem newNative {f : FunctionObject} {arity : Nat} {op : Native}
    (native : f.callable = .native arity op) :
    Lending (modifyGet (·.newFunction f) : StateM Heap FunctionRef) :=
  ⟨fun _ => .newNative native⟩

theorem mapM {f : α → StateM Heap β} (each : ∀ a, Lending (f a)) (list : List α) :
    Lending (list.mapM f) := by
  induction list with
  | nil => exact pure []
  | cons a rest ih =>
    rw [List.mapM_cons]
    exact (each a).bind fun _ => ih.bind fun _ => pure _

end Lending

namespace Globals

theorem lending_entry (f : GlobalFunction) : Lending (entry f) :=
  .bind (.newNative rfl) fun _ => .pure _

theorem lending_namespaceOf (constants : List (String × Value)) (fs : List GlobalFunction) :
    Lending (namespaceOf constants fs) :=
  .bind (.mapM lending_entry fs) fun _ => .bind (.newObject _) fun _ => .pure _

theorem lending_errorConstructor (name : String) (prototype : ObjectRef) :
    Lending (errorConstructor name prototype) :=
  .bind (.newNative rfl) fun _ => .pure _

theorem lending_errors : Lending errors := by
  refine .bind (lending_entry _) fun _ => .bind (.newObject _) ?_
  intro base
  refine .bind (.mapM (fun name => ?_) _) fun others => ?_
  · exact .bind (.newObject _) fun _ => lending_errorConstructor ..
  · exact .bind (lending_errorConstructor ..) fun _ => .pure _

theorem lending_standard : Lending standard := by
  refine .bind lending_errors fun _ => .bind (lending_namespaceOf ..) ?_
  intro _
  refine .bind (lending_namespaceOf ..) fun _ => .bind (lending_namespaceOf ..) ?_
  intro _
  refine .bind (lending_namespaceOf ..) fun _ => .bind (lending_namespaceOf ..) ?_
  intro _
  exact .bind (.mapM lending_entry _) fun _ => .pure _

end Globals

theorem Methods.lending_table {α : Type} (signature : α → Signature) (op : α → Native)
    (methods : List α) : Lending (table signature op methods) :=
  .bind (.mapM (fun _ => .bind (.newNative rfl) fun _ => .pure _) _) fun _ => .pure _

theorem Methods.lending_fresh : Lending fresh :=
  .bind (lending_table ..) fun _ => .bind (lending_table ..) fun _ =>
    .bind (lending_table ..) fun _ =>
    .bind (lending_table ..) fun _ => .bind (lending_table ..) fun _ => .pure _

namespace Blueprint

mutual

/-- A description without script functions. -/
def scriptless : Blueprint → Bool
  | .array items => scriptlessItems items
  | .object entries => scriptlessEntries entries
  | .heir entries parent => scriptlessEntries entries && parent.scriptless
  | .closure _ _ _ => false
  | _ => true

def scriptlessItems : List Blueprint → Bool
  | [] => true
  | b :: rest => b.scriptless && scriptlessItems rest

def scriptlessEntries : List (String × Blueprint) → Bool
  | [] => true
  | (_, b) :: rest => b.scriptless && scriptlessEntries rest

end

mutual

theorem lending_build (b : Blueprint) (pure : b.scriptless = true) : Lending b.build := by
  match b with
  | .undefined | .null | .boolean _ | .number _ | .string _ | .existing _ => exact .pure _
  | .array items =>
    exact .bind (lending_buildItems items pure) fun _ => .bind (.newArray _) fun _ => .pure _
  | .object entries =>
    exact .bind (lending_buildEntries entries pure) fun _ => .bind (.newObject _) fun _ => .pure _
  | .heir entries parent =>
    rw [Blueprint.scriptless, Bool.and_eq_true] at pure
    apply Lending.bind (lending_buildEntries entries pure.1)
    intro _
    exact .bind (lending_build parent pure.2) fun _ => .bind (.newObject _) fun _ => .pure _
  | .lent name f => exact .bind (.newNative rfl) fun _ => .pure _
  | .closure _ _ _ => cases pure

theorem lending_buildItems (items : List Blueprint) (pure : scriptlessItems items = true) :
    Lending (buildItems items) := by
  match items with
  | [] => exact .pure _
  | b :: rest =>
    rw [scriptlessItems, Bool.and_eq_true] at pure
    exact .bind (lending_build b pure.1) fun _ =>
      .bind (lending_buildItems rest pure.2) fun _ => .pure _

theorem lending_buildEntries (entries : List (String × Blueprint))
    (pure : scriptlessEntries entries = true) :
    Lending (buildEntries entries) := by
  match entries with
  | [] => exact .pure _
  | (k, b) :: rest =>
    rw [scriptlessEntries, Bool.and_eq_true] at pure
    exact .bind (lending_build b pure.1) fun _ =>
      .bind (lending_buildEntries rest pure.2) fun _ => .pure _

end

end Blueprint

/-! ### Sessions -/

namespace Session

theorem editing_declareAll (given : Value → Prop) (kind : DeclKind) {list : List (String × Value)}
    (all : ∀ entry ∈ list, given entry.2) : (declareAll kind list).Editing given := by
  induction list with
  | nil => exact Arena.Op.editing_pure ()
  | cons entry rest ih =>
    obtain ⟨name, v⟩ := entry
    have first : given v := all _ List.mem_cons_self
    refine Arena.Op.editing_bind ?_ fun _ => ih fun e member =>
      all e (List.mem_cons_of_mem _ member)
    exact (Arena.editing_declareOwn kind Arena.root name v).mono fun _ same => same ▸ first

theorem editing_install (given : Value → Prop) {globals : Table Value} {host : Value}
    (nothing : given .undefined) (all : ∀ entry ∈ globals.entries, given entry.2)
    (own : given host) :
    (install globals host).Editing given := by
  refine Arena.Op.editing_bind ((Arena.editing_declareOwn ..).mono ?_) fun _ => ?_
  · exact fun _ same => same ▸ nothing
  refine Arena.Op.editing_bind (editing_declareAll given .let_ all) fun _ => ?_
  exact (Arena.editing_declareOwn ..).mono fun _ same => same ▸ own

theorem lending_globals {o : Options} (pure : Blueprint.scriptlessEntries o.globals = true) :
    Lending (globals o) := by
  have more := Blueprint.lending_buildEntries o.globals pure
  unfold globals
  split
  · exact .bind Globals.lending_standard fun _ => .bind more fun _ => .pure _
  · exact .bind (.pure _) fun _ => .bind more fun _ => .pure _

end Session

/-- Options without script functions. -/
def Options.scriptless (o : Options) : Bool :=
  (o.host.all Blueprint.scriptless) && Blueprint.scriptlessEntries o.globals

theorem Session.lending_prepare {o : Options} (pure : o.scriptless = true) :
    Lending (prepare o) := by
  rw [Options.scriptless, Bool.and_eq_true] at pure
  have host : Lending (o.host.getD (.object [])).build := by
    apply Blueprint.lending_build _
    cases given : o.host with
    | none => rfl
    | some b => simpa [given] using pure.1
  exact .bind (lending_globals pure.2) fun _ => .bind host fun _ =>
    .bind Methods.lending_fresh fun _ => .pure _

namespace World

variable {w w' : World} {i j : Nat} {α : Type}

/-- The state in which a session starts a computation. -/
def start (w : World) (session : Session) : State where
  heap := w.heap
  scopes := session.scopes
  realm := session.realm
  memory := session.memory
  console := w.console

def state? (w : World) (i : Nat) : Option State :=
  w.sessions[i]?.map w.start

/-- What hosts do; `asks` says which tasks they have done. -/
inductive Step (asks : (α : Type) → Task α → Prop) (w : World) : World → Prop where
  | openSession (o : Options) : o.scriptless = true → Step asks w (w.openSession o).2.2
  | ask {α : Type} (i fuel : Nat) (task : Task α) : asks α task →
      (∀ s ∈ w.state? i, ∀ env ∈ task.env?, (s.scopes.record env).phase = .running) →
      Step asks w (w.within i (task.run fuel)).2
  | declare (i : Nat) (kind : DeclKind) (name : String) (v : Value) :
      Step asks w (w.within i (Eval.onScopes (Arena.declareOwn kind Arena.root name v))).2
  | build (i : Nat) (b : Blueprint) : b.scriptless = true →
      Step asks w (w.within i (Eval.build b)).2
  | takeConsole : Step asks w w.takeConsole.2

/-- The worlds that a host can get to. -/
abbrev Reachable (asks : (α : Type) → Task α → Prop) : World → Prop :=
  Relation.ReflTransGen (Step asks) {}

/-- The world that a computation of a session leaves. -/
def left (w : World) (i : Nat) (session : Session) (t : State) : World :=
  { heap := t.heap
    sessions := w.sessions.setIfInBounds i { session with scopes := t.scopes, memory := t.memory }
    console := t.console }

theorem state?_eq {s : State} (there : w.state? i = some s) :
    ∃ session, w.sessions[i]? = some session ∧ s = w.start session := by
  unfold state? at there
  cases found : w.sessions[i]? with
  | none => simp [found] at there
  | some session =>
    simp only [found, Option.map_some, Option.some.injEq] at there
    exact ⟨session, rfl, there.symm⟩

/-- A computation of a session ends as it does in the state that the session has, and leaves the
world that its last state stands for. -/
theorem within_runs (w : World) (i : Nat) (m : Eval α) :
    ((w.within i m).1 = .exhausted ∧ (w.within i m).2 = w) ∨
      ∃ session s t, w.sessions[i]? = some session ∧ w.state? i = some s ∧
        (w.within i m).2 = w.left i session t ∧
        ((∃ a, m s = .ok a t ∧ (w.within i m).1 = .done a) ∨
          ∃ f, m s = .fault f t ∧ (w.within i m).1 = .failed f) := by
  unfold within state?
  cases found : w.sessions[i]? with
  | none => exact .inl ⟨rfl, rfl⟩
  | some session =>
    simp only [Option.map_some, Option.some.injEq]
    simp only [← start.eq_def]
    cases done : m (w.start session) with
    | exhausted t => exact .inl ⟨rfl, rfl⟩
    | ok a t => exact .inr ⟨session, _, t, rfl, rfl, rfl, .inl ⟨a, done, rfl⟩⟩
    | fault f t => exact .inr ⟨session, _, t, rfl, rfl, rfl, .inr ⟨f, done, rfl⟩⟩

theorem within_cases (w : World) (i : Nat) (m : Eval α) :
    (w.within i m).2 = w ∨ ∃ session s t, w.sessions[i]? = some session ∧ w.state? i = some s ∧
      ((∃ a, m s = .ok a t) ∨ ∃ f, m s = .fault f t) ∧ (w.within i m).2 = w.left i session t := by
  rcases w.within_runs i m with ⟨-, same⟩ | ⟨session, s, t, found, there, left, ended⟩
  · exact .inl same
  · refine .inr ⟨session, s, t, found, there, ?_, left⟩
    exact ended.imp (fun ⟨a, ran, _⟩ => ⟨a, ran⟩) fun ⟨f, ran, _⟩ => ⟨f, ran⟩

theorem within_done {m : Eval α} {a : α} (done : (w.within i m).1 = .done a) :
    ∃ s t, w.state? i = some s ∧ m s = .ok a t := by
  rcases w.within_runs i m with ⟨ended, -⟩ |
    ⟨-, s, t, -, there, -, ⟨b, ran, ended⟩ | ⟨f, ran, ended⟩⟩
  · cases ended.symm.trans done
  · cases ended.symm.trans done
    exact ⟨s, t, there, ran⟩
  · cases ended.symm.trans done

theorem within_failed {m : Eval α} {f : Fault} (failed : (w.within i m).1 = .failed f) :
    ∃ s t, w.state? i = some s ∧ m s = .fault f t := by
  rcases w.within_runs i m with ⟨ended, -⟩ |
    ⟨-, s, t, -, there, -, ⟨b, ran, ended⟩ | ⟨g, ran, ended⟩⟩
  · cases ended.symm.trans failed
  · cases ended.symm.trans failed
  · cases ended.symm.trans failed
    exact ⟨s, t, there, ran⟩

/-- A change of the heap or of the console is seen by all sessions. -/
theorem state?_share (w : World) (heap : Heap) (console : List String) :
    World.state? { w with heap := heap, console := console } i =
      (w.state? i).map fun s => { s with heap := heap, console := console } := by
  simp only [state?, Option.map_map]
  rfl

theorem state?_push (w : World) (session : Session) :
    World.state? { w with sessions := w.sessions.push session } i =
      if i = w.sessions.size then some (w.start session) else w.state? i := by
  simp only [state?, Array.getElem?_push]
  split
  · rfl
  · rfl

/-- Opening a session adds one with fresh scopes, or only leaves values behind. -/
theorem openSession_cases (w : World) (o : Options) : ∃ globals host methods heap,
    Session.prepare o w.heap = ((globals, host, methods), heap) ∧
      ((∃ c, w.openSession o = (host, some c, { w with heap := heap })) ∨
        ∃ session : Session,
          Session.install globals host (Arena.new w.sessions.size) = .ok () session.scopes ∧
          session.realm.id = w.sessions.size ∧ session.memory = {} ∧
          w.openSession o = (host, none,
            { ({ w with heap := heap } : World) with sessions := w.sessions.push session })) := by
  unfold openSession
  simp only [StateT.run]
  cases made : Session.prepare o w.heap with
  | mk values heap =>
    obtain ⟨globals, host, methods⟩ := values
    refine ⟨globals, host, methods, heap, rfl, ?_⟩
    cases installed : Session.install globals host (Arena.new w.sessions.size) with
    | error c scopes =>
      refine .inl ⟨c, ?_⟩
      simp only [installed]
    | ok done scopes =>
      let realm : Realm := {
        id := w.sessions.size, methods := methods, maxDepth := o.maxDepth, outside := o.outside }
      refine .inr ⟨{ scopes := scopes, realm := realm, parse := o.parse }, rfl, rfl, rfl, ?_⟩
      simp only [installed, realm]

/-- One session is where its computation left it; the others see the heap and the console change. -/
theorem state?_left {session : Session} {t u : State} (found : w.sessions[i]? = some session)
    (there : (w.left i session t).state? j = some u) :
    (j = i ∧ u = { t with realm := session.realm, depth := 0 }) ∨
      (j ≠ i ∧ ∃ s, w.state? j = some s ∧ u = { s with heap := t.heap, console := t.console }) := by
  obtain ⟨session', found', rfl⟩ := state?_eq there
  obtain ⟨inside, -⟩ := Array.getElem?_eq_some_iff.1 found
  by_cases same : j = i
  · subst same
    simp only [left, Array.getElem?_setIfInBounds_self_of_lt inside, Option.some.injEq] at found'
    exact .inl ⟨rfl, by rw [← found']; rfl⟩
  · simp only [left, Array.getElem?_setIfInBounds_ne (Ne.symm same)] at found'
    have before : w.state? j = some (w.start session') := by
      simp only [state?, found', Option.map_some]
    exact .inr ⟨same, _, before, rfl⟩

end World

end Scriptlet
