import Scriptlet.Proofs.Eval.Prototype
import Scriptlet.Proofs.Host.World

/-!
Chains of prototypes in the worlds of hosts.

A host can only hand over objects that it got from somewhere, and gives the objects that it makes
what they inherit from when it makes them. So the chains of a world stay finite through all that
hosts and scripts do.
-/

namespace Scriptlet

open Mentions (mentions)

/-! ### What hosts hand over -/

/-- The objects that a description takes up. -/
inductive Blueprint.TakesUp (r : ObjectRef) : Blueprint → Prop where
  | existing {v : Value} : r ∈ mentions v → TakesUp r (.existing v)
  | array {items : List Blueprint} {b : Blueprint} :
      b ∈ items → TakesUp r b → TakesUp r (.array items)
  | object {entries : List (String × Blueprint)} {key : String} {b : Blueprint} :
      (key, b) ∈ entries → TakesUp r b → TakesUp r (.object entries)
  | heir {entries : List (String × Blueprint)} {parent : Blueprint} {key : String} {b : Blueprint} :
      (key, b) ∈ entries → TakesUp r b → TakesUp r (.heir entries parent)
  | parent {entries : List (String × Blueprint)} {parent : Blueprint} :
      TakesUp r parent → TakesUp r (.heir entries parent)
  | closure {name : String} {scope : ScopeId} {props : List (String × Blueprint)} {key : String}
      {b : Blueprint} : (key, b) ∈ props → TakesUp r b → TakesUp r (.closure name scope props)

instance : Mentions Blueprint := ⟨fun b => {r | b.TakesUp r}⟩

instance : Mentions Options := ⟨fun o => mentions o.host ∪ mentions o.globals⟩

namespace Known

variable {k : Knowledge}

instance native (arity : Nat) (op : Native) [known : Known k op] :
    Known k (Callable.native arity op) :=
  ⟨known.subset⟩

instance closure (fn : Function) (η : Handle) (realm : Nat) :
    Known k (Callable.closure fn η realm) :=
  ⟨Set.empty_subset k⟩

instance newFunction (name : String) (callable : Callable) (props : Table Value)
    [one : Known k callable] [two : Known k props] :
    Known k ({ name := name, callable := callable, props := props } : FunctionObject) :=
  ⟨Set.union_subset one.subset two.subset⟩

instance errorMaker (prototype : ObjectRef) [known : Known k prototype] :
    Known k (Native.error prototype) := by
  refine ⟨?_⟩
  rintro _ rfl
  exact known.subset rfl

/-- Entries take up what their descriptions do. -/
theorem of_entries {entries : List (String × Blueprint)} {whole : Blueprint} (known : Known k whole)
    (inside : ∀ r key b, (key, b) ∈ entries → b.TakesUp r → whole.TakesUp r) : Known k entries := by
  refine ⟨fun r ⟨⟨key, b⟩, there, member⟩ => known.subset ?_⟩
  rcases member with member | member
  · exact absurd member (Set.notMem_empty r)
  · exact inside r key b there member

end Known

/-! ### Building values -/

/-- A host's computation that knows some objects: it leaves a heap intact, and answers with objects
that there are then. -/
structure Keeping {α : Type} [Mentions α] (k : Knowledge) (m : StateM Heap α) : Prop where
  intro ::
  run : ∀ h : Heap, h.Intact → k ⊆ h.existing →
    (m h).2.Intact ∧ h.Grows (m h).2 ∧ Known (m h).2.existing (m h).1

namespace Keeping

variable {k : Knowledge} {α β : Type} [Mentions α] [Mentions β]

theorem pure (a : α) [known : Known k a] : Keeping k (Pure.pure a : StateM Heap α) :=
  ⟨fun h intact told => ⟨intact, .refl h, known.more told⟩⟩

theorem bind {m : StateM Heap α} {f : α → StateM Heap β} (first : Keeping k m)
    (then_ : ∀ a, Keeping (k.plus a) (f a)) : Keeping k (m >>= f) := by
  constructor
  intro h intact told
  obtain ⟨intact', grows, answer⟩ := first.run h intact told
  have later : k.plus (m h).1 ⊆ (m h).2.existing :=
    Knowledge.plus_subset (told.trans grows.existing) answer
  obtain ⟨intact'', grows', answer'⟩ := (then_ (m h).1).run (m h).2 intact' later
  exact ⟨intact'', grows.trans grows', answer'⟩

theorem newArray (elements : Array Value) [known : Known k elements] :
    Keeping k (modifyGet (·.newArray elements) : StateM Heap ArrayRef) := by
  constructor
  intro h intact told
  obtain ⟨intact', grows⟩ := intact.step (.newArray elements (known.more told))
  exact ⟨intact', grows, inferInstance⟩

theorem newObject (o : Object) [known : Known k o] :
    Keeping k (modifyGet (·.newObject o) : StateM Heap ObjectRef) := by
  constructor
  intro h intact told
  obtain ⟨intact', grows⟩ := intact.newObject o (known.more told)
  refine ⟨intact', grows, ⟨?_⟩⟩
  rintro _ rfl
  show h.objects.size < (h.objects.push o).size
  simp

theorem newFunction (f : FunctionObject) [known : Known k f] :
    Keeping k (modifyGet (·.newFunction f) : StateM Heap FunctionRef) := by
  constructor
  intro h intact told
  obtain ⟨intact', grows⟩ := intact.newFunction f (known.more told)
  exact ⟨intact', grows, inferInstance⟩

omit [Mentions α] in
theorem mapM {f : α → StateM Heap β} (each : ∀ {k : Knowledge} a, Keeping k (f a)) (list : List α) :
    Keeping k (list.mapM f) := by
  induction list generalizing k with
  | nil => exact pure []
  | cons a rest ih =>
    rw [List.mapM_cons]
    exact (each a).bind fun _ => ih.bind fun _ => pure _

end Keeping

variable {k : Knowledge}

namespace Globals

theorem keeping_entry (f : GlobalFunction) : Keeping k (entry f) := by
  have : Known k (Native.global f) := ⟨Set.empty_subset k⟩
  exact .bind (.newFunction _) fun _ => .pure _

theorem keeping_namespaceOf (constants : List (String × Value)) (fs : List GlobalFunction)
    [Known k constants] : Keeping k (namespaceOf constants fs) :=
  .bind (.mapM keeping_entry fs) fun _ => .bind (.newObject _) fun _ => .pure _

theorem keeping_errorConstructor (name : String) (prototype : ObjectRef) [Known k prototype] :
    Keeping k (errorConstructor name prototype) :=
  .bind (.newFunction _) fun _ => .pure _

theorem keeping_errors : Keeping k errors := by
  refine .bind (keeping_entry _) fun toText => .bind (.newObject _) ?_
  intro base
  have others {told : Knowledge} [Known told base] (names : List String) :
      Keeping told (names.mapM fun name => do
        let prototype ← newObject
          { props := .ofList [("name", .string name)], prototype := some base }
        errorConstructor name prototype) := by
    induction names generalizing told with
    | nil => exact .pure []
    | cons name rest ih =>
      rw [List.mapM_cons]
      refine .bind (.bind (.newObject _) fun _ => keeping_errorConstructor ..) fun _ => ?_
      exact .bind ih fun _ => .pure _
  exact .bind (others _) fun _ => .bind (keeping_errorConstructor ..) fun _ => .pure _

theorem keeping_standard : Keeping k standard := by
  refine .bind keeping_errors fun _ => .bind (keeping_namespaceOf ..) ?_
  intro _
  refine .bind (keeping_namespaceOf ..) fun _ => .bind (keeping_namespaceOf ..) ?_
  intro _
  refine .bind (keeping_namespaceOf ..) fun _ => .bind (keeping_namespaceOf ..) ?_
  intro _
  exact .bind (.mapM keeping_entry _) fun _ => .pure _

end Globals

namespace Methods

theorem keeping_table {α : Type} (signature : α → Signature) (op : α → Native) (methods : List α)
    (plain : ∀ m, mentions (op m) = ∅) : Keeping k (table signature op methods) := by
  refine .bind (.mapM (fun m => ?_) methods) fun _ => .pure _
  have (told : Knowledge) : Known told (op m) := ⟨plain m ▸ Set.empty_subset told⟩
  exact .bind (.newFunction _) fun _ => .pure _

theorem keeping_fresh : Keeping k fresh :=
  .bind (keeping_table _ _ _ fun _ => rfl) fun _ =>
    .bind (keeping_table _ _ _ fun _ => rfl) fun _ =>
    .bind (keeping_table _ _ _ fun _ => rfl) fun _ =>
      .bind (keeping_table _ _ _ fun _ => rfl) fun _ =>
      .bind (keeping_table _ _ _ fun _ => rfl) fun _ => .pure _

end Methods

namespace Blueprint

mutual

theorem keeping_build {k : Knowledge} (b : Blueprint) (given : Known k b) : Keeping k b.build := by
  match b with
  | .undefined | .null | .boolean _ | .number _ | .string _ => exact .pure _
  | .existing v =>
    have : Known k v := ⟨fun r member => given.subset (.existing member)⟩
    exact .pure v
  | .array items =>
    have inside : Known k items := ⟨fun r ⟨b, there, member⟩ => given.subset (.array there member)⟩
    exact .bind (keeping_buildItems items inside) fun _ => .bind (.newArray _) fun _ => .pure _
  | .object entries =>
    have inside : Known k entries := given.of_entries fun _ _ _ => .object
    exact .bind (keeping_buildEntries entries inside) fun _ => .bind (.newObject _) fun _ => .pure _
  | .heir entries parent =>
    have inside : Known k entries := given.of_entries fun _ _ _ => .heir
    have above : Known k parent := ⟨fun r member => given.subset (.parent member)⟩
    apply Keeping.bind (keeping_buildEntries entries inside)
    intro props
    apply Keeping.bind (keeping_build parent (above.more Knowledge.subset_plus))
    intro v
    refine .bind (@Keeping.newObject _ _ (@Known.newObject _ _ _ inferInstance ?_)) fun _ => .pure _
    split
    · exact Known.some_iff.2 ⟨Known.told.subset⟩
    · infer_instance
  | .lent name f =>
    have : Known k (Native.host f) := ⟨Set.empty_subset k⟩
    exact .bind (.newFunction _) fun _ => .pure _
  | .closure name scope props =>
    have inside : Known k props := given.of_entries fun _ _ _ => .closure
    exact .bind (keeping_buildEntries props inside) fun _ => .bind (.newFunction _) fun _ => .pure _

theorem keeping_buildItems {k : Knowledge} (items : List Blueprint) (given : Known k items) :
    Keeping k (buildItems items) := by
  match items with
  | [] => exact .pure _
  | b :: rest =>
    obtain ⟨first, rest_⟩ := Known.cons_iff.1 given
    refine .bind (keeping_build b first) fun _ => ?_
    exact .bind (keeping_buildItems rest (rest_.more Knowledge.subset_plus)) fun _ => .pure _

theorem keeping_buildEntries {k : Knowledge} (entries : List (String × Blueprint))
    (given : Known k entries) : Keeping k (buildEntries entries) := by
  match entries with
  | [] => exact .pure _
  | (key, b) :: rest =>
    obtain ⟨first, rest_⟩ := Known.cons_iff.1 given
    refine .bind (keeping_build b (Known.pair_iff.1 first).2) fun _ => ?_
    exact .bind (keeping_buildEntries rest (rest_.more Knowledge.subset_plus)) fun _ => .pure _

end

end Blueprint

theorem Session.keeping_globals (o : Options) (given : Known k o.globals) :
    Keeping k (globals o) := by
  have more {told : Knowledge} (start : Table Value) (known : k ⊆ told) [Known told start] :
      Keeping told (do
        let more ← Blueprint.buildEntries o.globals
        return more.foldl (fun t e => t.insert e.1 e.2) start) :=
    .bind (Blueprint.keeping_buildEntries o.globals (given.more known)) fun _ => .pure _
  unfold globals
  split
  · exact .bind Globals.keeping_standard fun start => more start Knowledge.subset_plus
  · exact .bind (.pure _) fun start => more start Knowledge.subset_plus

theorem Session.keeping_prepare (o : Options) (given : Known k o) : Keeping k (prepare o) := by
  have host : Known k o.host := given.less Set.subset_union_left
  have own : Known k (o.host.getD (.object [])) := by
    have none : Known k (Blueprint.object []) := ⟨by rintro r (_ | _ | ⟨⟨⟩, _⟩)⟩
    infer_instance
  refine .bind (keeping_globals o (given.less Set.subset_union_right)) fun _ => ?_
  refine .bind (Blueprint.keeping_build _ (own.more Knowledge.subset_plus)) fun _ => ?_
  exact .bind Methods.keeping_fresh fun _ => .pure _

/-! ### Worlds -/

namespace World

variable {w w' : World} {i : Nat} {α : Type}

/-- Nothing in a world refers to an object that is not there, and every object has a finite way
up. -/
structure Intact (w : World) : Prop where
  heap : w.heap.Intact
  scopes : ∀ session ∈ w.sessions, Known w.heap.existing session.scopes

/-- What a host does, with objects that there are. -/
inductive Use (w : World) : World → Prop where
  | openSession (o : Options) : Known w.heap.existing o → Use w (w.openSession o).2.2
  | ask {α : Type} (i fuel : Nat) (task : Task α) : Known w.heap.existing task →
      Use w (w.within i (task.run fuel)).2
  | declare (i : Nat) (kind : DeclKind) (name : String) (v : Value) : Known w.heap.existing v →
      Use w (w.within i (Eval.onScopes (Arena.declareOwn kind Arena.root name v))).2
  | build (i : Nat) (b : Blueprint) : Known w.heap.existing b → Use w (w.within i (Eval.build b)).2
  | takeConsole : Use w w.takeConsole.2

abbrev Uses : World → World → Prop :=
  Relation.ReflTransGen Use

namespace Intact

theorem empty : World.Intact {} :=
  ⟨.empty, fun session member => absurd member (by simp)⟩

theorem state (intact : w.Intact) {s : State} (there : w.state? i = some s) : s.Intact := by
  obtain ⟨session, found, rfl⟩ := state?_eq there
  exact ⟨intact.heap, intact.scopes session (Array.mem_of_getElem? found)⟩

theorem within {m : Eval α} (intact : w.Intact)
    (ends : ∀ s t, w.state? i = some s → (m s).EndsIn t → t.Intact ∧ s.heap.Grows t.heap) :
    (w.within i m).2.Intact := by
  rcases w.within_cases i m with same | ⟨session, s, t, found, there, ended, left⟩
  · rwa [same]
  obtain ⟨after, grows⟩ := ends s t there ended
  obtain ⟨_, -, rfl⟩ := state?_eq there
  rw [left]
  refine ⟨after.heap, fun other member => ?_⟩
  rcases Array.mem_or_eq_of_mem_setIfInBounds member with member | rfl
  · exact (intact.scopes other member).more grows.existing
  · exact after.scopes

theorem openSession {o : Options} (intact : w.Intact) (given : Known w.heap.existing o) :
    (w.openSession o).2.2.Intact := by
  have prepared := (Session.keeping_prepare o given).run w.heap intact.heap subset_rfl
  obtain ⟨globals, host, methods, heap, made, ⟨c, same⟩ | ⟨session, installed, -, -, same⟩⟩ :=
    w.openSession_cases o
  · rw [made] at prepared
    obtain ⟨after, grows, -⟩ := prepared
    rw [same]
    exact ⟨after, fun session member => (intact.scopes session member).more grows.existing⟩
  · rw [made] at prepared
    obtain ⟨after, grows, answer⟩ := prepared
    obtain ⟨names, rest⟩ := Known.pair_iff.1 answer
    have own : Known heap.existing host := (Known.pair_iff.1 rest).1
    have all : ∀ entry ∈ globals.entries, Known heap.existing entry.2 := fun entry member =>
      ⟨fun r there => names.subset ⟨entry.2, List.mem_map_of_mem member, there⟩⟩
    have edits := (Session.editing_install _ Known.undefined all own).ok installed
    let start : State := { heap := heap, scopes := .new w.sessions.size, realm := session.realm }
    have sound : ancestry.sound start := ⟨after, Known.new _⟩
    have scopes := (Contract.Sat.edits sound edits).1.scopes
    rw [same]
    refine ⟨after, fun other member => ?_⟩
    rcases Array.mem_push.1 member with member | rfl
    · exact (intact.scopes other member).more grows.existing
    · exact scopes

theorem use (intact : w.Intact) (use : w.Use w') : w'.Intact := by
  cases use with
  | openSession o given => exact intact.openSession given
  | ask i fuel task given =>
    refine intact.within fun s t there ended => ?_
    have sound := intact.state there
    obtain ⟨session, -, rfl⟩ := state?_eq there
    have knows : Known (ancestry.known (w.start session).heap) task := given
    have starts : ancestry.Starts task _ := ⟨sound, fun _ _ => trivial, fun _ _ => trivial⟩
    exact Contract.endsIn_run starts ended
  | declare i kind name v given =>
    refine intact.within fun s t there ended => ?_
    have sound := intact.state there
    obtain ⟨_, -, rfl⟩ := state?_eq there
    have sat : ancestry.Sat Arena.root w.heap.existing _ _ :=
      .onScopes (Arena.editing_declareOwn kind Arena.root name v)
    exact (sat.ends sound trivial subset_rfl).endsIn ended
  | build i b given =>
    refine intact.within ?_
    rintro s t there (⟨_, ⟨⟩⟩ | ⟨_, ⟨⟩⟩)
    have sound := intact.state there
    obtain ⟨_, -, rfl⟩ := state?_eq there
    obtain ⟨after, grows, -⟩ := (Blueprint.keeping_build b given).run w.heap intact.heap subset_rfl
    exact ⟨⟨after, sound.scopes.more grows.existing⟩, grows⟩
  | takeConsole => exact ⟨intact.heap, intact.scopes⟩

theorem uses (intact : w.Intact) (uses : w.Uses w') : w'.Intact := by
  induction uses with
  | refl => exact intact
  | tail _ step ih => exact ih.use step

/-- So are the states that evaluations go through. -/
theorem passes {task : Task α} {fuel : Nat} {s t : State} (intact : w.Intact)
    (there : w.state? i = some s)
    (given : Known s.heap.existing task) (passes : task.Passes fuel s t) : t.Intact := by
  have knows : Known (ancestry.known s.heap) task := given
  have starts : ancestry.Starts task s :=
    ⟨intact.state there, fun _ _ => trivial, fun _ _ => trivial⟩
  exact Contract.sound_of_passes starts passes

end Intact

end World

/-- From a world on in which all chains of prototypes are finite, whatever hosts and scripts do,
each object of each state that an evaluation goes through has a finite chain without repetitions,
does not inherit from itself, and all loops that go up from it end. -/
theorem prototypes_acyclic {w w' : World} {i fuel : Nat} {s t : State} {α : Type} {task : Task α}
    (intact : w.Intact) (uses : w.Uses w') (there : w'.state? i = some s)
    (given : Known s.heap.existing task) (passes : task.Passes fuel s t) :
    ∀ r ∈ t.heap.existing, (∃ path, t.heap.Path r path ∧ path.Nodup) ∧
      ¬Relation.TransGen t.heap.Inherits r r ∧ t.heap.LoopsEnd r := by
  have after := (intact.uses uses).passes there given passes
  intro r exists_
  obtain ⟨path, finite⟩ := after.heap.finite r exists_
  exact ⟨⟨path, finite, finite.nodup⟩, finite.acyclic,
    finite.loopsEnd (after.heap.inside finite exists_)⟩

/-- An instance whose function was given an instance of itself to inherit from. -/
theorem prototypes_acyclic_instances :
    ∃ (p : Program) (s t : State),
      parseProgram "function F() \x7b\x7d F.prototype = new F(); new F()" {} = .ok p ∧
      (World.openSession {} { standard := false }).2.2.state? 0 = some s ∧
      (Task.program p).Passes 30 s t ∧ ⟨3⟩ ∈ t.heap.existing ∧ t.heap.Inherits ⟨3⟩ ⟨2⟩ ∧
      (∃ path, t.heap.Path ⟨3⟩ path ∧ path.Nodup) ∧
      ¬Relation.TransGen t.heap.Inherits ⟨3⟩ ⟨3⟩ ∧ t.heap.LoopsEnd ⟨3⟩ := by
  let w := (World.openSession {} { standard := false }).2.2
  have runs : (parseProgram "function F() \x7b\x7d F.prototype = new F(); new F()" {}).toOption.any
      (fun p => (w.within 0 ((Task.program p).run 30)).2.heap.objects.map (·.prototype) ==
        #[none, none, some ⟨1⟩, some ⟨2⟩]) = true := by
    decide +kernel
  obtain ⟨p, accepted, made⟩ := (Option.any_eq_true ..).1 runs
  have accepted :
      parseProgram "function F() \x7b\x7d F.prototype = new F(); new F()" {} = .ok p := by
    revert accepted
    generalize parseProgram "function F() \x7b\x7d F.prototype = new F(); new F()" {} = parsed
    intro accepted
    cases parsed with
    | error e => cases accepted
    | ok q =>
      cases accepted
      rfl
  have made := eq_of_beq made
  have before : w.heap.objects.size = 1 := by decide +kernel
  rcases w.within_cases 0 ((Task.program p).run 30) with same |
    ⟨session, s, t, found, there, ended, left⟩
  · rw [same] at made
    have sizes := congrArg Array.size made
    simp [before] at sizes
  · rw [left] at made
    change t.heap.objects.map (·.prototype) = _ at made
    have size : t.heap.objects.size = 4 := by simpa using congrArg Array.size made
    have exists_ : ⟨3⟩ ∈ t.heap.existing := by
      show 3 < t.heap.objects.size
      omega
    have parent : t.heap.Inherits ⟨3⟩ ⟨2⟩ := by
      have last := congrArg (·[3]?) made
      simp only [Array.getElem?_map] at last
      unfold Heap.Inherits Heap.object
      cases at_ : t.heap.objects[3]? with
      | none => simp [at_] at last
      | some o => simpa [at_] using last
    have uses : World.Uses {} w := .single (.openSession _ ⟨by rintro r (⟨_, ⟨⟩, _⟩ | ⟨_, ⟨⟩, _⟩)⟩)
    have passes : (Task.program p).Passes 30 s t := Task.passes_end ended
    exact ⟨p, s, t, accepted, there, passes, exists_, parent,
      prototypes_acyclic .empty uses there ⟨Set.empty_subset _⟩ passes ⟨3⟩ exists_⟩

end Scriptlet
