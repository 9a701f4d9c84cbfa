import Scriptlet.Proofs.Eval.Whole

/-!
Bindings are permanent.

Main statement: as long as a record stays allocated, its names stay bound, each as it was declared,
and its constants keep their values, whichever operations are done; and an evaluation only does such
operations, one after another.
-/

namespace Scriptlet

open Eval

/-- No name is lost, no name is declared anew, and constants stay the same. -/
def Record.Permanent (r r' : Record) : Prop :=
  ∀ name b, r.bindings.get? name = some b →
    ∃ b', r'.bindings.get? name = some b' ∧ b'.kind = b.kind ∧
      (b.kind = .const → b'.value = b.value)

namespace Record.Permanent

variable {r r' r'' : Record}

theorem of_bindings (same : r'.bindings = r.bindings) : r.Permanent r' :=
  fun _ b there => ⟨b, by rw [same, there], rfl, fun _ => rfl⟩

theorem refl (r : Record) : r.Permanent r :=
  of_bindings rfl

theorem trans (first : r.Permanent r') (second : r'.Permanent r'') : r.Permanent r'' := by
  intro name b there
  obtain ⟨b', there', kind, value⟩ := first name b there
  obtain ⟨b'', there'', kind', value'⟩ := second name b' there'
  refine ⟨b'', there'', kind'.trans kind, fun const => ?_⟩
  rw [value' (kind.trans const), value const]

end Record.Permanent

namespace Arena

variable {a b c : Arena} {id x : ScopeId} {given : Value → Prop}

/-- An edit does not take anything from any record. -/
theorem Edit.permanent (edit : a.Edit given b) (x : ScopeId) :
    (a.record x).Permanent (b.record x) := by
  -- a binding that is set at a name is the first one there, or keeps what is permanent
  have set {id : ScopeId} {name : String} {new : Binding}
      (replaces : ∀ old, (a.record id).bindings.get? name = some old →
        new.kind = old.kind ∧ (old.kind = .const → new.value = old.value)) :
      (a.record x).Permanent ((a.bind id name new).record x) := by
    by_cases here : x = id ∧ id.index < a.records.size
    · obtain ⟨rfl, inside⟩ := here
      intro other old there
      rw [bindings_bind_self inside]
      by_cases same : name = other
      · subst same
        exact ⟨new, Table.get?_insert_self .., replaces old there⟩
      · exact ⟨old, by rw [Table.get?_insert_of_ne _ same, there], rfl, fun _ => rfl⟩
    · refine .of_bindings ?_
      unfold Arena.bind
      rw [record_modifyRecord, if_neg here]
  cases edit with
  | assign v _ there free =>
    refine set ?_
    intro old same
    rw [there] at same
    cases same
    exact ⟨rfl, fun const => absurd const free⟩
  | declare new _ none =>
    refine set ?_
    intro old same
    rw [none] at same
    cases same

/-- The arena that an operation leaves, done or refused. -/
def Op.left {α : Type} (op : Op α) (a : Arena) : Arena :=
  match op a with
  | .ok _ b | .error _ b => b

/-- The operations of an arena, on records that are in use or not, and with handles that are there
or not. -/
inductive Change (a : Arena) : Arena → Prop where
  | push (kind : ScopeKind) (parent : ScopeId) (alive : Handle → Bool) :
      Change a (a.push kind parent alive).2
  | capture (id : ScopeId) (alive : Handle → Bool) : Change a (a.capture id alive).2
  | retire (id : ScopeId) : Change a (a.retire id)
  | release (h : Heap) (held : Holders) (id : ScopeId) : Change a (a.release h held id)
  | collect (h : Heap) (held : Holders) : Change a (a.collect h held)
  | write (id : ScopeId) (name : String) (v : Value) : Change a ((write id name v).left a)
  | declareVar (id : ScopeId) (name : String) (v : Value) : Change a ((declareVar id name v).left a)
  | initVar (id : ScopeId) (name : String) (v : Value) : Change a ((initVar id name v).left a)
  | declareOwn (kind : DeclKind) (id : ScopeId) (name : String) (v : Value) :
      Change a ((declareOwn kind id name v).left a)
  | declareFunction (id : ScopeId) (name : String) (v : Value) :
      Change a ((declareFunction id name v).left a)

theorem Op.Editing.left {α : Type} {op : Op α} (editing : op.Editing given) (a : Arena) :
    a.Edits given (op.left a) := by
  have edited := editing.run a
  unfold Op.left
  cases done : op a with
  | ok v b =>
    rw [done] at edited
    exact edited
  | error c b =>
    rw [done] at edited
    exact edited.1

/-- A binding is set by one of the operations. -/
theorem Edit.change (edit : a.Edit given b) : a.Change b := by
  cases edit with
  | @assign id name b v _ there free =>
    have own : a.lookup? id name = some (id, b) := by
      have inside : a.records.size ≠ 0 := fun none => by
        rw [record_eq_default (by omega)] at there
        cases there
      obtain ⟨n, sized⟩ := Nat.exists_eq_succ_of_ne_zero inside
      simp only [lookup?, sized, lookupFrom, there]
    have done : (write id name v).left a = a.bind id name { b with value := v } := by
      simp only [Op.left, write, own, if_neg free]
    exact done ▸ .write id name v
  | @declare id name b _ none =>
    have done : (declareOwn b.kind id name b.value).left a = a.bind id name b := by
      simp only [Op.left, declareOwn, binds, Table.contains, none]
      rfl
    exact done ▸ .declareOwn b.kind id name b.value

theorem Edits.permanent (edits : a.Edits given b) (x : ScopeId) :
    (a.record x).Permanent (b.record x) := by
  induction edits with
  | refl => exact .refl _
  | tail _ edit ih => exact ih.trans (edit.permanent x)

theorem Edits.rooted (edits : a.Edits given b) (rooted : a.Rooted) : b.Rooted := by
  induction edits with
  | refl => exact rooted
  | tail _ edit ih =>
    obtain ⟨_, _, _, -, rfl⟩ := edit.bind_eq
    exact ih.bind ..

namespace Change

theorem permanent (change : a.Change b) (before : a.Allocates x) (after : b.Allocates x) :
    (a.record x).Permanent (b.record x) := by
  cases change with
  | push kind parent alive => exact .of_bindings (before.bindings_push kind parent alive)
  | capture id alive => exact .of_bindings ((SameSlots.capture a id alive).bindings x)
  | retire id => exact .of_bindings (bindings_retire a id x)
  | release h held id =>
    exact .of_bindings ((Clears.release a h held id).bindings_of_allocates after)
  | collect h held => exact .of_bindings ((Clears.collect a h held).bindings_of_allocates after)
  | write id name v => exact ((editing_write id name v).left a).permanent x
  | declareVar id name v => exact ((editing_declareVar id name v).left a).permanent x
  | initVar id name v => exact ((editing_initVar id name v).left a).permanent x
  | declareOwn kind id name v => exact ((editing_declareOwn kind id name v).left a).permanent x
  | declareFunction id name v => exact ((editing_declareFunction id name v).left a).permanent x

theorem rooted (change : a.Change b) (rooted : a.Rooted) : b.Rooted := by
  cases change with
  | push kind parent alive => exact rooted.push kind parent alive
  | capture id alive => exact rooted.capture id alive
  | retire id => exact rooted.retire id
  | release h held id => exact rooted.release h held id
  | collect h held => exact rooted.collect h held
  | write id name v => exact ((editing_write id name v).left a).rooted rooted
  | declareVar id name v => exact ((editing_declareVar id name v).left a).rooted rooted
  | initVar id name v => exact ((editing_initVar id name v).left a).rooted rooted
  | declareOwn kind id name v => exact ((editing_declareOwn kind id name v).left a).rooted rooted
  | declareFunction id name v => exact ((editing_declareFunction id name v).left a).rooted rooted

end Change

end Arena

namespace State

variable {s t u : State} {id : ScopeId}

/-- How an interpreter gets from one moment to the next: an operation is done on its scopes, or
nothing happens to them. -/
inductive Move (s : State) : State → Prop where
  | operation {a : Arena} : s.scopes.Change a → Move s { s with scopes := a }
  | elsewhere {t : State} : t.scopes = s.scopes → Move s t

abbrev Moves : State → State → Prop :=
  Relation.ReflTransGen Move

/-- The moments of an interpreter, from the one on at which it has nothing but a fresh root. -/
def Arises (s : State) : Prop :=
  ∃ start : State, (∃ realm, start.scopes = .new realm) ∧ start.Moves s

/-- A record is allocated at one moment and at all others up to a later one. -/
def Lasts (id : ScopeId) : State → State → Prop :=
  Relation.ReflTransGen fun s t => s.Move t ∧ s.scopes.Allocates id ∧ t.scopes.Allocates id

/-! ### While a record stays allocated -/

theorem Move.permanent (move : s.Move t) (before : s.scopes.Allocates id)
    (after : t.scopes.Allocates id) : (s.scopes.record id).Permanent (t.scopes.record id) := by
  cases move with
  | operation change => exact change.permanent before after
  | elsewhere same => exact .of_bindings (by rw [same])

theorem Move.rooted (move : s.Move t) (rooted : s.scopes.Rooted) : t.scopes.Rooted := by
  cases move with
  | operation change => exact change.rooted rooted
  | elsewhere same => rwa [same]

theorem Lasts.permanent (lasts : Lasts id s t) :
    (s.scopes.record id).Permanent (t.scopes.record id) := by
  induction lasts with
  | refl => exact .refl _
  | tail _ step ih =>
    obtain ⟨move, before, after⟩ := step
    exact ih.trans (move.permanent before after)

/-- The root lasts. -/
theorem Moves.lasts_root (moves : s.Moves t) (rooted : s.scopes.Rooted) :
    t.scopes.Rooted ∧ Lasts Arena.root s t := by
  induction moves with
  | refl => exact ⟨rooted, .refl⟩
  | tail _ move ih =>
    have next := move.rooted ih.1
    exact ⟨next, ih.2.tail ⟨move, ih.1.allocates, next.allocates⟩⟩

/-! ### The moves of an evaluation -/

theorem Moves.elsewhere (same : t.scopes = s.scopes) : s.Moves t :=
  .single (.elsewhere same)

/-- An operation, and something else besides. -/
theorem Moves.operation (change : s.scopes.Change t.scopes) : s.Moves t := by
  have first : s.Moves { s with scopes := t.scopes } := .single (.operation change)
  exact first.tail (.elsewhere rfl)

theorem Moves.edit {given : Value → Prop} (edit : s.scopes.Edit given t.scopes) : s.Moves t :=
  .operation edit.change

theorem Moves.closed (closed : s.closed id = some t) : s.Moves t := by
  rcases closed_cases closed with ⟨-, same⟩ | ⟨-, values, closes⟩
  · rw [same]
    exact .operation (.retire id)
  · rw [closes.same]
    exact .operation (.release ..)

end State

/-- How the scopes move during an evaluation that starts at `base`. -/
def permanence (base : State) : Contract where
  sound s := base.Moves s
  live _ _ := True
  kept s t := s.Moves t
  fine _ := True
  stops _ := False
  cut _ := False
  raised _ := True

variable {base : State}

instance : (permanence base).Complete :=
  ⟨fun _ => id, fun _ => id, id⟩

instance : (permanence base).Indifferent :=
  ⟨fun _ => rfl⟩

theorem Permanence.sound_moves {s t : State} (sound : (permanence base).sound s)
    (moves : s.Moves t) :
    (permanence base).sound t ∧ (permanence base).kept s t :=
  ⟨sound.trans moves, moves⟩

open Permanence

instance : (permanence base).Lawful where
  refl _ := .refl
  trans _ _ _ := .trans
  live_kept _ _ _ _ _ := trivial
  live_root _ _ := trivial
  known_kept _ _ _ := subset_rfl
  known_stored _ _ := inferInstance
  known_there _ _ _ := trivial
  child _ _ _ _ _ := trivial
  assigned _ absurd := absurd.elim
  heap _ _ sound _ _ := sound_moves sound (.elsewhere rfl)
  console _ _ sound := sound_moves sound (.elsewhere rfl)
  edit _ _ sound edit := sound_moves sound (.edit edit)
  closure s _ _ env sound _ _ := sound_moves sound (.operation (.capture env s.isAlive))
  opened s env sound _ :=
    ⟨sound.trans (State.Moves.operation (.push .block env s.isAlive)), trivial⟩
  closed s env _ _ sound _ _ kept closed :=
    sound_moves sound ((State.Moves.operation (.push .block env s.isAlive)).trans
      (kept.trans (State.Moves.closed closed)))
  called s _ _ η sound _ :=
    ⟨trivial, sound.trans (State.Moves.operation (.push .function η.scope _)), trivial⟩
  returned s _ _ η _ _ sound _ _ kept closed :=
    sound_moves sound ((State.Moves.operation (.push .function η.scope _)).trans
      (kept.trans ((State.Moves.closed closed).trans (State.Moves.elsewhere rfl))))
  scripted _ _ := trivial
  located _ _ _ _ := trivial
  stuck _ _ _ := .inr fun _ => trivial

/-- Whatever an evaluation passes it comes to by moves. -/
theorem Task.moves {α : Type} {fuel : Nat} {task : Task α} {s t : State}
    (passes : task.Passes fuel s t) : s.Moves t := by
  have starts : (permanence s).Starts task s := ⟨.refl, fun _ _ => trivial, fun _ _ => trivial⟩
  exact Contract.sound_of_passes starts passes

end Scriptlet
