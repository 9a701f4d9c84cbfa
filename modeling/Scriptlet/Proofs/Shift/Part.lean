import Scriptlet.Proofs.Shift.Tree
import Scriptlet.Tree.Piece

/-!
Building from nodes that stand further behind.

What is built of shifted parts is what is built of the parts themselves, shifted; so is the error if
it is refused. `bind_shift` carries this from step to step.
-/

namespace Scriptlet

def BuildError.shift (d : Nat) (e : BuildError) : BuildError :=
  ⟨e.cause, e.span.shift d⟩

namespace Tree

open Grammar (Rule)

variable {α β α' β' : Type} {d : Nat}

/-- What is built further behind, where `f` shifts the result. -/
def Build.shift (d : Nat) (f : α → β) : Build α → Build β
  | .ok a => .ok (f a)
  | .error e => .error (e.shift d)

@[simp] theorem Build.shift_ok (f : α → β) (a : α) : Build.shift d f (.ok a) = .ok (f a) := rfl

@[simp] theorem Build.shift_pure (f : α → β) (a : α) :
    Build.shift d f (pure a) = (pure (f a) : Build β) := rfl

@[simp] theorem Build.shift_error (f : α → β) (e : BuildError) :
    Build.shift d f (.error e) = .error (e.shift d) := rfl

/-- A step that is shifted, with everything after it. -/
theorem bind_shift {f : α → α'} {h : β → β'} {m : Build α} {k : α → Build β} {k' : α' → Build β'}
    (rest : ∀ a, k' (f a) = (k a).shift d h) : (m.shift d f >>= k') = (m >>= k).shift d h := by
  cases m with
  | error e => rfl
  | ok a => exact rest a

theorem map_shift {f : α → α'} {h : β → β'} {m : Build α} {k : α → β} {k' : α' → β'}
    (result : ∀ a, k' (f a) = h (k a)) : (m.shift d f).map k' = Build.shift d h (m.map k) := by
  cases m with
  | error e => rfl
  | ok a => exact congrArg Except.ok (result a)

theorem ite_shift {c : Prop} [Decidable c] {f : α → β} {m n : Build α} {m' n' : Build β}
    (yes : m' = m.shift d f) (no : n' = n.shift d f) :
    (if c then m' else n') = Build.shift d f (if c then m else n) := by
  split
  · exact yes
  · exact no

/-! ### Pieces and parts -/

def Suffix.shift (d : Nat) : Suffix → Suffix
  | .static name => .static (name.shift d)
  | .computed key => .computed (key.shift d)
  | .call arguments => .call (shiftItems d arguments)

def Piece.shift (d : Nat) : Piece → Piece
  | .token text => .token text
  | .number value => .number value
  | .string value => .string value
  | .expr e => .expr (e.shift d)
  | .leading op => .leading op
  | .update op => .update op
  | .assignOp op => .assignOp op
  | .suffix s => .suffix (s.shift d)
  | .spread e => .spread (e.shift d)
  | .slot item => .slot (item.shift d)
  | .key k => .key (k.shift d)
  | .member m => .member (m.shift d)
  | .pattern p => .pattern (p.shift d)
  | .bindingSlot p => .bindingSlot (shiftPattern? d p)
  | .bindingProperty p => .bindingProperty (p.shift d)
  | .parameters params => .parameters (shiftPatterns d params)
  | .functionBody body => .functionBody (body.shift d)
  | .block b => .block (b.shift d)
  | .stmt s => .stmt (s.shift d)
  | .declKind k => .declKind k
  | .declarator x => .declarator (x.shift d)
  | .declaration x => .declaration (x.shift d)
  | .forInit init => .forInit (init.shift d)
  | .forTest e => .forTest (e.shift d)
  | .forUpdate e => .forUpdate (e.shift d)
  | .eachTarget declared target => .eachTarget declared (target.shift d)
  | .handler h => .handler (h.shift d)
  | .finalizer b => .finalizer (b.shift d)
  | .case c => .case (c.shift d)
  | .program body => .program (shiftStmts d body)

def Part.shift (d : Nat) (p : Part) : Part :=
  ⟨p.rule, p.span.shift d, p.piece.shift d (Piece.shift d)⟩

def shiftParts (d : Nat) (parts : List Part) : List Part :=
  parts.map (Part.shift d)

theorem piece_shift (p : Part) : (p.shift d).piece = p.piece.shift d (Piece.shift d) := rfl

/-! ### Reading a part -/

theorem name_shift (p : Part) : (p.shift d).name = p.name.shift d (Name.shift d) := by
  refine bind_shift fun a => ?_
  cases a <;> rfl

theorem expr_shift (p : Part) : (p.shift d).expr = p.expr.shift d (Expr.shift d) := by
  refine bind_shift fun a => ?_
  cases a with
  | token text => exact ite_shift rfl rfl
  | _ => rfl

theorem pattern_shift (p : Part) : (p.shift d).pattern = p.pattern.shift d (Pattern.shift d) := by
  refine bind_shift fun a => ?_
  cases a with
  | token text => exact ite_shift rfl rfl
  | _ => rfl

theorem block_shift (p : Part) : (p.shift d).block = p.block.shift d (Block.shift d) := by
  refine bind_shift fun a => ?_
  cases a <;> rfl

theorem stmt_shift (p : Part) : (p.shift d).stmt = p.stmt.shift d (Stmt.shift d) := by
  refine bind_shift fun a => ?_
  cases a <;> rfl

theorem parameters_shift (p : Part) :
    (p.shift d).parameters = p.parameters.shift d (List.map (Pattern.shift d)) := by
  refine bind_shift fun a => ?_
  cases a with
  | parameters ps => simp [Piece.shift, shiftPatterns_eq]
  | _ => rfl

theorem key_shift (p : Part) : (p.shift d).key = p.key.shift d (PropertyKey.shift d) := by
  refine bind_shift fun a => ?_
  cases a <;> rfl

theorem infixOp_shift (p : Part) : (p.shift d).infixOp = p.infixOp.shift d id := by
  unfold Part.infixOp
  simp only [Part.shift]
  split <;> rfl

/-- Parts that are read one after the other. -/
theorem each_shift {f : Part → Build α} {f' : Part → Build β} {h : α → β}
    (one : ∀ p, f' (p.shift d) = (f p).shift d h) (parts : List Part) :
    each f' (shiftParts d parts) = (each f parts).shift d (List.map h) := by
  induction parts with
  | nil => rfl
  | cons p rest ih =>
    simp only [shiftParts, List.map_cons, each, one]
    refine bind_shift fun a => ?_
    rw [← shiftParts, ih]
    exact bind_shift fun as => rfl

end Tree

end Scriptlet
