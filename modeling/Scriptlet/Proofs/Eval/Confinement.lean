import Scriptlet.Proofs.Eval.Ledger

/-!
Interpreters keep to their own functions and scopes.

A closure belongs to the realm in which it was made. Main statement: whatever an evaluation meets,
it only runs parts of its own task and of closures of its own realm; calls of other closures are
refused before anything changes; and the scopes that are referred to are the ones that were meant.
-/

namespace Scriptlet

open Eval

/-- A part of one of the given parts of programs. -/
inductive Node.Within (code : Set Node) : Node → Prop where
  | self {n : Node} : n ∈ code → Within code n
  | child {n m : Node} : Within code n → m ∈ n.children → Within code m

/-- The functions of the closures that a realm has made. -/
def State.ownFunctions (s : State) : Set Node :=
  {n | ∃ fn η, n = .function fn ∧ s.heap.Closure fn η s.realm.id}

/-- The call of a closure of another realm, which goes by a label. -/
def Task.CallsForeign {α : Type} (task : Task α) (s : State) (label : String) : Prop :=
  match task with
  | .call (.function r) _ _ => ∃ f fn η realm, s.heap.function? r = some f ∧
      f.callable = .closure fn η realm ∧ realm ≠ s.realm.id ∧ f.label = label
  | _ => False

/-- Whoever calls a closure of another realm, or makes an instance with it, fails with a type error,
with all scopes and bindings as they were. -/
def State.RefusesForeign (s : State) : Prop :=
  ∀ r f fn η realm, s.heap.function? r = some f → f.callable = .closure fn η realm →
    realm ≠ s.realm.id → ∀ fuel args,
      (∀ receiver, (Task.call (.function r) receiver args).run fuel s =
        .fault { cause := .type (.foreignFunction f.label) } s) ∧
      ∃ c h, (Task.construct (.function r) args).run (fuel + 1) s =
        .fault { cause := .type c } { s with heap := h }

/-- What holds of an evaluation that starts in `t` and is nested in one that started in `s`, with
the given code and ledger. -/
structure Ledger.Confines (l : Ledger) (s : State) (code : Set Node) {α : Type} (task : Task α)
    (t : State)
    (o : Outcome α) : Prop where
  /-- If it is the call of a closure of another realm, nothing changes. Without fuel there are no
  calls. -/
  refused : ∀ label, task.CallsForeign t label →
    o = .exhausted t ∨ o = .fault { cause := .type (.foreignFunction label) } t
  foreign : t.RefusesForeign
  code : ∀ n ∈ task.nodes, n.Within code
  live : ∀ env ∈ task.env?, (t.scopes.record env).phase = .running ∧ t.scopes.Stands env
  /-- All that is referred to is what was meant, when the evaluation starts and up to its end. -/
  traced : ∃ l', l.Path s l' t ∧ l'.Coherent t ∧ l'.Means t ∧
    ∀ u, o.EndsIn u → ∃ l'', l'.Resumes t l'' u

/-! ### What is refused -/

section Refused

variable {s : State} {r : FunctionRef} {f : FunctionObject} {fn : Function} {η : Handle}
  {realm : Nat}

/-- Whoever calls a closure of another realm. -/
theorem call_foreign (rec : Recursion) (found : s.heap.function? r = some f)
    (callable : f.callable = .closure fn η realm) (foreign : realm ≠ s.realm.id) (receiver : Value)
    (args : List Value) : Eval.call rec (.function r) receiver args s =
      .fault { cause := .type (.foreignFunction f.label) } s := by
  have apart : (realm != s.realm.id) = true := by simpa using foreign
  simp only [Eval.call, Bind.bind, Eval.bind, Eval.gets, found, callable, callClosure,
    apart, if_true]
  rfl

/-- A function is looked at for its prototype, which may be made then. -/
theorem functionPrototype_ok (found : s.heap.function? r = some f) :
    ∃ v h, functionPrototype r s = .ok v { s with heap := h } ∧
      ∃ g, h.function? r = some g ∧ g.callable = f.callable := by
  simp only [functionPrototype, Bind.bind, Eval.bind, Eval.gets, found]
  cases f.props.get? "prototype" with
  | some v => exact ⟨v, s.heap, rfl, f, found, rfl⟩
  | none =>
    by_cases none : (f.isArrow || !f.isClosure) = true
    · simp only [none, if_true]
      exact ⟨.undefined, s.heap, rfl, f, found, rfl⟩
    · simp only [none]
      let made : Value := .object (s.heap.newObject {}).1
      refine ⟨_, _, rfl, { f with props := f.props.insert "prototype" made }, ?_, rfl⟩
      unfold Heap.function? at found
      simp [Heap.function?, Heap.modifyFunction, Heap.newObject, Array.getElem?_modify, found, made]

/-- Nobody makes an instance with a closure of another realm. -/
theorem construct_foreign (fuel : Nat) (found : s.heap.function? r = some f)
    (callable : f.callable = .closure fn η realm) (foreign : realm ≠ s.realm.id)
    (args : List Value) :
    ∃ c h, Eval.construct (recursion (fuel + 1)) (.function r) args s =
      .fault { cause := .type c } { s with heap := h } := by
  by_cases arrow : f.isArrow = true
  · simp only [Eval.construct, Bind.bind, Eval.bind, Eval.gets, found, Option.any_some,
      arrow, if_true]
    exact ⟨_, _, rfl⟩
  · obtain ⟨v, h, looked, g, found', same⟩ := functionPrototype_ok found
    rw [Bool.not_eq_true] at arrow
    simp only [Eval.construct, Bind.bind, Eval.bind, Eval.gets, found, Option.any_some, arrow,
      Bool.false_eq_true, if_false, looked, Eval.newObject]
    have refused (o : Object) :=
      call_foreign (recursion fuel) (s := { s with heap := (h.newObject o).2 })
      (r := r) found' (same.trans callable) foreign (.object (h.newObject o).1) args
    exact ⟨_, _, by simp only [recursion, refused]; rfl⟩

theorem State.refusesForeign (s : State) : s.RefusesForeign :=
  fun _ _ _ _ _ found callable foreign fuel args =>
    ⟨fun receiver => call_foreign _ found callable foreign receiver args,
      construct_foreign fuel found callable foreign args⟩

end Refused

/-! ### The contract -/

/-- An evaluation in a realm, of its own code, that started with a ledger. -/
def confinement (l : Ledger) (base : State) (code : Set Node) : Contract where
  sound s := (discipline base.scopes).sound s ∧ (∃ l', l.Path base l' s ∧ l'.Coherent s) ∧
    ∀ fn scope, s.heap.Closure fn scope s.realm.id → (Node.function fn).Within code
  live env s := (s.scopes.record env).phase = .running
  kept s t := s.Settled t ∧ s.Traced t
  fine n := n.Within code
  stops _ := False
  cut _ := False
  raised _ := True

namespace Confinement

variable {l : Ledger} {base : State} {code : Set Node}

instance : (confinement l base code).Complete :=
  ⟨fun _ => id, fun _ => id, id⟩

instance : (confinement l base code).Indifferent :=
  ⟨fun _ => rfl⟩

/-- A step that keeps the discipline can be traced, and makes closures of the code only. -/
theorem sound_later {s t : State} (sound : (confinement l base code).sound s)
    (settles : (discipline base.scopes).sound t ∧ s.Settled t) (traced : s.Traced t)
    (own : ∀ fn η, t.heap.Closure fn η t.realm.id → (Node.function fn).Within code) :
    (confinement l base code).sound t ∧ (confinement l base code).kept s t := by
  obtain ⟨-, ⟨l', path, coherent⟩, -⟩ := sound
  obtain ⟨l'', resumes⟩ := traced l' coherent
  exact ⟨⟨settles.1, ⟨l'', path.trans resumes.path, resumes.coherent⟩, own⟩, settles.2, traced⟩

variable {s o t u v : State} {kind : ScopeKind} {parent : ScopeId} {η : Handle}

theorem sound_opened (sound : (confinement l base code).sound s)
    (disciplined : (discipline base.scopes).sound o) (opens : s.Opens kind parent η o) :
    (confinement l base code).sound o := by
  obtain ⟨before, ⟨l', path, coherent⟩, own⟩ := sound
  obtain ⟨x, rfl, denotes, step⟩ := opens.step l' coherent
  refine ⟨disciplined, ⟨_, path.tail step, opens.coherent before.1 coherent denotes⟩,
    fun fn θ there => ?_⟩
  rw [opens.heap, opens.realm] at there
  exact own fn θ there

theorem sound_closed (sound : (confinement l base code).sound s) (opens : s.Opens kind parent η o)
    (after : (confinement l base code).sound t) (kept : (confinement l base code).kept o t)
    (closed : t.closed s.scopes.nextSlot = some v) (same : u = { v with depth := s.depth })
    (settles : (discipline base.scopes).sound u ∧ s.Settled u) :
    (confinement l base code).sound u ∧ (confinement l base code).kept s u := by
  refine sound_later sound settles ?_ fun fn θ there => ?_
  · exact .scope sound.1.1 opens kept.2 kept.1 after.1.1 closed same settles.2
  · have rest := State.closed_eq closed
    have heap : u.heap = t.heap := by rw [same, rest]
    have realm : u.realm = t.realm := by rw [same, rest]
    rw [heap, realm] at there
    exact after.2.2 fn θ there

instance : (confinement l base code).Lawful where
  refl s := ⟨.refl s, .refl s⟩
  trans _ _ _ first second := ⟨first.1.trans second.1, .trans first.1 first.2 second.2⟩
  live_kept env s t live kept :=
    Contract.Lawful.live_kept (C := discipline base.scopes) env s t live kept.1
  live_root s sound := sound.1.1.tidy.root
  known_kept _ _ _ := subset_rfl
  known_stored _ _ := inferInstance
  known_there _ _ _ := trivial
  child n fine _ m member := .child fine member
  assigned _ absurd := absurd.elim
  heap s h sound step within := by
    have same := step.sameClosures
    refine sound_later sound (Contract.Lawful.heap s h sound.1 step fun absurd => absurd.elim)
      (.store same rfl rfl) fun fn η there => ?_
    exact sound.2.2 fn η (same.lends fn η _ there)
  console s lines sound :=
    sound_later sound (Contract.Lawful.console s lines sound.1) (.store (.refl _) rfl rfl) sound.2.2
  edit s a sound edit :=
    sound_later sound (Contract.Lawful.edit s a sound.1 edit) (.edit edit) sound.2.2
  closure s name fn env sound live fine := by
    refine sound_later sound (Contract.Lawful.closure s name fn env sound.1 live trivial)
      (.closure sound.1.1.chartered live name fn) fun fn' η there => ?_
    rcases Heap.closure_newFunction.1 there with there | made
    · exact sound.2.2 fn' η there
    · cases made
      exact fine
  opened s env sound live := by
    obtain ⟨after, runs⟩ := Contract.Lawful.opened (C := discipline base.scopes) s env sound.1 live
    obtain ⟨η, opens⟩ := State.Opens.block live
    exact ⟨sound_opened sound after opens, runs⟩
  closed s env t u sound live after kept closed := by
    have settles := Contract.Lawful.closed s env t u sound.1 live after.1 kept.1 closed
    obtain ⟨η, opens⟩ := State.Opens.block live
    have depth : u.depth = s.depth := settles.2.depth
    exact sound_closed sound opens after kept closed (by rw [← depth]) settles
  called s r fn η sound calls := by
    obtain ⟨-, after, runs⟩ := Contract.Lawful.called s r fn η sound.1 calls
    exact ⟨sound.2.2 fn η calls.there.closure,
      sound_opened sound after (.call sound.1.1 calls), runs⟩
  returned s r fn η t u sound calls after kept closed := by
    have settles := Contract.Lawful.returned s r fn η t u sound.1 calls after.1 kept.1 closed
    have depth : u.depth - 1 = s.depth := settles.2.depth
    exact sound_closed sound (.call sound.1.1 calls) after kept closed
      (by rw [State.returned, depth]) settles
  scripted _ _ := trivial
  located _ _ _ _ := trivial
  stuck _ _ _ := .inr fun _ => trivial

end Confinement

/-! ### Runs -/

theorem Contract.Twins.refuses {α : Type} {task : Task α} {m m' : Eval α} {s : State}
    {label : String}
    (twins : Twins task m m') (foreign : task.CallsForeign s label) :
    m s = .exhausted s ∨ m s = .fault { cause := .type (.foreignFunction label) } s := by
  cases twins with
  | exhausted => exact .inl rfl
  | step r w =>
    unfold Task.CallsForeign at foreign
    split at foreign
    · obtain ⟨f, fn, η, realm, found, callable, apart, rfl⟩ := foreign
      exact .inr (call_foreign r found callable apart ..)
    · exact foreign.elim

/-- All that an evaluation meets is confined to its realm. -/
theorem Task.eachFrom_confines {α : Type} (task : Task α) (fuel : Nat) {s : State} {l : Ledger}
    (orderly : s.Orderly)
    (coherent : l.Coherent s) (live : ∀ env ∈ task.env?, (s.scopes.record env).phase = .running) :
    task.EachFrom
      (fun _ nested t o => l.Confines s ({n | n ∈ task.nodes} ∪ s.ownFunctions) nested t o)
        fuel s := by
  intro cut
  have guards : (confinement l s ({n | n ∈ task.nodes} ∪ s.ownFunctions)).Guards .none (.watchFrom
      (fun _ nested t o => l.Confines s ({n | n ∈ task.nodes} ∪ s.ownFunctions) nested t o)
        cut) := by
    intro β nested m m' t starts twins agree
    obtain ⟨same, ends⟩ := (agree (fun _ _ _ _ => id) fun absurd => absurd.elim).eq
    have holds : l.Confines s ({n | n ∈ task.nodes} ∪ s.ownFunctions) nested t (m' t) := by
      obtain ⟨disciplined, ⟨l', path, here⟩, -⟩ := starts.sound
      refine ⟨fun label foreign => same ▸ twins.refuses foreign, t.refusesForeign, starts.fine,
        fun env member => ?_, l', path, here, here.toCharts.means disciplined.1, fun u ended => ?_⟩
      · have running : (t.scopes.record env).phase = .running := starts.live env member
        exact ⟨running, disciplined.1.stands running⟩
      · rw [same] at ended
        have kept := (@Contract.Ends.endsIn _ β nested.carries _ _ t u ends ended).2
        exact kept.2 l' here
    show Contract.AgreeOn _ nested t (m t) (Guard.watchFrom _ cut β nested m' t)
    rw [Guard.watchFrom_of_holds cut holds, same]
    exact .same _ ends
  have starts : (confinement l s ({n | n ∈ task.nodes} ∪ s.ownFunctions)).Starts task s :=
    ⟨⟨⟨orderly, .refl _⟩, ⟨l, .refl l s, coherent⟩,
      fun fn η there => .self (.inr ⟨fn, η, rfl, there⟩)⟩, live,
        fun n member => .self (.inl member)⟩
  rw [← Guard.run_none]
  exact (Contract.agree_run guards fuel task starts).eq.1

end Scriptlet
