import Mathlib.Logic.Relation
import Scriptlet.Proofs.Scope.Record

/-!
What the operations on bindings do to an arena.

All of them come down to two steps: a name gets its first binding in a record, or the value of a
binding that is no constant changes.
-/

namespace Scriptlet.Arena

variable {a b : Arena} {given : Value → Prop}

/-- A step that touches one binding of one record, which gets one of the given values. -/
inductive Edit (given : Value → Prop) (a : Arena) : Arena → Prop where
  | assign {id : ScopeId} {name : String} {b : Binding} (v : Value) : given v →
      (a.record id).bindings.get? name = some b → b.kind ≠ .const →
      Edit given a (a.bind id name { b with value := v })
  | declare {id : ScopeId} {name : String} (b : Binding) : given b.value →
      (a.record id).bindings.get? name = none → Edit given a (a.bind id name b)

abbrev Edits (given : Value → Prop) : Arena → Arena → Prop :=
  Relation.ReflTransGen (Edit given)

/-- Bindings were edited; an operation is only refused for a cause that scripts can catch and have
not thrown. -/
def Edited {α : Type} (given : Value → Prop) (a : Arena) : EStateM.Result Cause Arena α → Prop
  | .ok _ b => Edits given a b
  | .error c b => Edits given a b ∧ c.kind ≠ .internal ∧ c.kind ≠ .thrown

/-- An operation that only edits bindings, with the given values. -/
structure Op.Editing {α : Type} (given : Value → Prop) (op : Op α) : Prop where
  intro ::
  run : ∀ a, Edited given a (op a)

theorem Edit.mono {more : Value → Prop} (all : ∀ v, given v → more v) (edit : Edit given a b) :
    Edit more a b := by
  cases edit with
  | assign v mine there free => exact .assign v (all v mine) there free
  | declare set mine there => exact .declare set (all _ mine) there

theorem Op.Editing.mono {α : Type} {op : Op α} {more : Value → Prop} (editing : op.Editing given)
    (all : ∀ v, given v → more v) : op.Editing more := by
  constructor
  intro a
  have edited := editing.run a
  cases done : op a with
  | ok x b =>
    rw [done] at edited
    exact Relation.ReflTransGen.mono (fun _ _ => Edit.mono all) _ _ edited
  | error c b =>
    rw [done] at edited
    exact ⟨Relation.ReflTransGen.mono (fun _ _ => Edit.mono all) _ _ edited.1, edited.2⟩

theorem lookupFrom_own {name : String} {owner : ScopeId} {b : Binding} (fuel : Nat) (id : ScopeId)
    (found : a.lookupFrom name fuel id = some (owner, b)) :
    (a.record owner).bindings.get? name = some b := by
  induction fuel generalizing id with
  | zero => simp [lookupFrom] at found
  | succ fuel ih =>
    simp only [lookupFrom] at found
    split at found
    · rename_i own
      cases found
      exact own
    · split at found
      · exact ih _ found
      · cases found

/-- The binding that is found for a name is one that its owner has. -/
theorem lookup?_own {name : String} {owner id : ScopeId} {b : Binding}
    (found : a.lookup? id name = some (owner, b)) :
    (a.record owner).bindings.get? name = some b :=
  lookupFrom_own _ _ found

theorem editing_write (id : ScopeId) (name : String) (v : Value) :
    (write id name v).Editing (· = v) := by
  constructor
  intro a
  simp only [write]
  cases found : a.lookup? id name with
  | none => exact ⟨.refl, by simp [Cause.kind]⟩
  | some owner =>
    obtain ⟨owner, b⟩ := owner
    by_cases constant : b.kind = .const
    · simp only [constant, if_true]
      exact ⟨.refl, by simp [Cause.kind]⟩
    · simp only [constant, if_false]
      exact .single (.assign v rfl (lookup?_own found) constant)

theorem editing_declareVar (id : ScopeId) (name : String) (v : Value) :
    (declareVar id name v).Editing (· = v) := by
  constructor
  intro a
  simp only [declareVar]
  by_cases there : a.binds (a.hoistTarget id) name = true
  · simp only [there, if_true]
    exact .refl
  · simp only [there]
    exact .single (.declare _ rfl (by simpa [binds, Table.contains] using there))

theorem editing_declareOwn (kind : DeclKind) (id : ScopeId) (name : String) (v : Value) :
    (declareOwn kind id name v).Editing (· = v) := by
  constructor
  intro a
  simp only [declareOwn]
  by_cases there : a.binds id name = true
  · simp only [there, if_true]
    exact ⟨.refl, by simp [Cause.kind]⟩
  · simp only [there]
    exact .single (.declare _ rfl (by simpa [binds, Table.contains] using there))

theorem editing_declareFunction (id : ScopeId) (name : String) (v : Value) :
    (declareFunction id name v).Editing (· = v) := by
  constructor
  intro a
  simp only [declareFunction]
  cases found : (a.record id).bindings.get? name with
  | none => exact .single (.declare _ rfl found)
  | some before =>
    obtain ⟨w, kind⟩ := before
    cases kind with
    | var => exact .single (.assign (b := ⟨w, .var⟩) v rfl found (by simp))
    | let_ => exact ⟨.refl, by simp [Cause.kind]⟩
    | const => exact ⟨.refl, by simp [Cause.kind]⟩

theorem Op.Editing.ok {α : Type} {op : Op α} {x : α} (editing : op.Editing given)
    (done : op a = .ok x b) :
    Edits given a b := by
  have edited := editing.run a
  rw [done] at edited
  exact edited

theorem Op.editing_bind {α β : Type} {op : Op α} {next : α → Op β} (first : op.Editing given)
    (then_ : ∀ x, (next x).Editing given) : Op.Editing given (op >>= next) := by
  constructor
  intro a
  have before := first.run a
  show Edited given a (EStateM.bind op next a)
  unfold EStateM.bind
  cases done : op a with
  | error c b =>
    rw [done] at before
    exact before
  | ok x b =>
    rw [done] at before
    have after := (then_ x).run b
    simp only
    cases ended : next x b with
    | error c d =>
      rw [ended] at after
      exact ⟨before.trans after.1, after.2⟩
    | ok y d =>
      rw [ended] at after
      exact before.trans after

theorem Op.editing_pure {α : Type} (x : α) : Op.Editing given (pure x) :=
  ⟨fun _ => .refl⟩

theorem editing_declare (kind : DeclKind) (id : ScopeId) (name : String) (v : Value) :
    (declare kind id name v).Editing (· = v) := by
  cases kind with
  | var => exact Op.editing_bind (editing_declareVar id name v) fun _ => Op.editing_pure ()
  | let_ => exact editing_declareOwn .let_ id name v
  | const => exact editing_declareOwn .const id name v

theorem editing_initVar (id : ScopeId) (name : String) (v : Value) :
    (initVar id name v).Editing (· = v) := by
  refine Op.editing_bind (editing_declareVar id name v) ?_
  intro declared
  cases declared with
  | true => exact Op.editing_pure ()
  | false => exact editing_write id name v

/-! ### What an edit leaves alone -/

theorem Edit.bind_eq (edit : Edit given a b) :
    ∃ id name set, given set.value ∧ b = a.bind id name set := by
  cases edit with
  | assign v mine => exact ⟨_, _, _, mine, rfl⟩
  | declare set mine => exact ⟨_, _, set, mine, rfl⟩

end Scriptlet.Arena
