import Scriptlet.Proofs.Grammar.Shift
import Scriptlet.Tree.FreeReturn
import Scriptlet.Tree.Precedence
import Scriptlet.Tree.Target

/-!
Program trees of a text that stands further behind.

Shifting a tree moves the span of every part of it and changes nothing else. What is made of a tree
or looked up in it moves along: the groups of operands, the targets of assignments, and the first
free return statement.
-/

namespace Scriptlet

/-! ### Shifting -/

def Name.shift (d : Nat) (n : Name) : Name :=
  ⟨n.text, n.span.shift d⟩

mutual

def Expr.shift (d : Nat) : Expr → Expr
  | .number s value => .number (s.shift d) value
  | .string s value => .string (s.shift d) value
  | .boolean s value => .boolean (s.shift d) value
  | .null s => .null (s.shift d)
  | .template s quasis parts => .template (s.shift d) quasis (shiftExprs d parts)
  | .identifier s name => .identifier (s.shift d) (name.shift d)
  | .this s => .this (s.shift d)
  | .array s items => .array (s.shift d) (shiftItems d items)
  | .object s members => .object (s.shift d) (shiftMembers d members)
  | .function s fn => .function (s.shift d) (fn.shift d)
  | .unary s op argument => .unary (s.shift d) op (argument.shift d)
  | .update s op before argument => .update (s.shift d) op before (argument.shift d)
  | .binary s op left right => .binary (s.shift d) op (left.shift d) (right.shift d)
  | .logical s op left right => .logical (s.shift d) op (left.shift d) (right.shift d)
  | .assign s op target value => .assign (s.shift d) op (target.shift d) (value.shift d)
  | .conditional s test yes no => .conditional (s.shift d) (test.shift d) (yes.shift d) (no.shift d)
  | .call s callee arguments => .call (s.shift d) (callee.shift d) (shiftItems d arguments)
  | .new s callee arguments => .new (s.shift d) (callee.shift d) (shiftItems d arguments)
  | .member s object key => .member (s.shift d) (object.shift d) (key.shift d)
  | .sequence s items => .sequence (s.shift d) (shiftExprs d items)

def shiftExprs (d : Nat) : List Expr → List Expr
  | [] => []
  | e :: rest => e.shift d :: shiftExprs d rest

def shiftExpr? (d : Nat) : Option Expr → Option Expr
  | none => none
  | some e => some (e.shift d)

def Item.shift (d : Nat) : Item → Item
  | .one value => .one (value.shift d)
  | .spread value => .spread (value.shift d)
  | .hole => .hole

def shiftItems (d : Nat) : List Item → List Item
  | [] => []
  | i :: rest => i.shift d :: shiftItems d rest

def Member.shift (d : Nat) : Member → Member
  | .property key value => .property (key.shift d) (value.shift d)
  | .spread value => .spread (value.shift d)

def shiftMembers (d : Nat) : List Member → List Member
  | [] => []
  | m :: rest => m.shift d :: shiftMembers d rest

def PropertyKey.shift (d : Nat) : PropertyKey → PropertyKey
  | .static text => .static text
  | .number value => .number value
  | .computed key => .computed (key.shift d)

def MemberKey.shift (d : Nat) : MemberKey → MemberKey
  | .static name => .static (name.shift d)
  | .computed key => .computed (key.shift d)

def Pattern.shift (d : Nat) : Pattern → Pattern
  | .identifier s name => .identifier (s.shift d) (name.shift d)
  | .array s elements => .array (s.shift d) (shiftElements d elements)
  | .object s properties rest =>
    .object (s.shift d) (shiftProperties d properties) (shiftPattern? d rest)
  | .withDefault s target value => .withDefault (s.shift d) (target.shift d) (value.shift d)
  | .rest s target => .rest (s.shift d) (target.shift d)
  | .member s object key => .member (s.shift d) (object.shift d) (key.shift d)

def shiftPattern? (d : Nat) : Option Pattern → Option Pattern
  | none => none
  | some p => some (p.shift d)

def shiftElements (d : Nat) : List (Option Pattern) → List (Option Pattern)
  | [] => []
  | p :: rest => shiftPattern? d p :: shiftElements d rest

def shiftPatterns (d : Nat) : List Pattern → List Pattern
  | [] => []
  | p :: rest => p.shift d :: shiftPatterns d rest

def PatternProperty.shift (d : Nat) : PatternProperty → PatternProperty
  | ⟨key, value⟩ => ⟨key.shift d, value.shift d⟩

def shiftProperties (d : Nat) : List PatternProperty → List PatternProperty
  | [] => []
  | p :: rest => p.shift d :: shiftProperties d rest

def Function.shift (d : Nat) : Function → Function
  | ⟨kind, name, params, body, s⟩ =>
    ⟨kind, name.map (Name.shift d), shiftPatterns d params, body.shift d, s.shift d⟩

def FunctionBody.shift (d : Nat) : FunctionBody → FunctionBody
  | .block body => .block (body.shift d)
  | .expression value => .expression (value.shift d)

def Block.shift (d : Nat) : Block → Block
  | ⟨body, s⟩ => ⟨shiftStmts d body, s.shift d⟩

def shiftBlock? (d : Nat) : Option Block → Option Block
  | none => none
  | some b => some (b.shift d)

def Stmt.shift (d : Nat) : Stmt → Stmt
  | .expression s value => .expression (s.shift d) (value.shift d)
  | .declaration s decl => .declaration (s.shift d) (decl.shift d)
  | .function s fn => .function (s.shift d) (fn.shift d)
  | .block s block => .block (s.shift d) (block.shift d)
  | .empty s => .empty (s.shift d)
  | .if_ s test yes no => .if_ (s.shift d) (test.shift d) (yes.shift d) (shiftStmt? d no)
  | .for_ s init test update body =>
    .for_ (s.shift d) (init.shift d) (shiftExpr? d test) (shiftExpr? d update) (body.shift d)
  | .forEach s mode declared target subject body =>
    .forEach (s.shift d) mode declared (target.shift d) (subject.shift d) (body.shift d)
  | .while_ s test body => .while_ (s.shift d) (test.shift d) (body.shift d)
  | .doWhile s body test => .doWhile (s.shift d) (body.shift d) (test.shift d)
  | .break_ s => .break_ (s.shift d)
  | .continue_ s => .continue_ (s.shift d)
  | .return_ s value => .return_ (s.shift d) (shiftExpr? d value)
  | .throw_ s value => .throw_ (s.shift d) (value.shift d)
  | .try_ s block handler finalizer =>
    .try_ (s.shift d) (block.shift d) (handler.shift d) (shiftBlock? d finalizer)
  | .switch s subject cases => .switch (s.shift d) (subject.shift d) (shiftCases d cases)

def shiftStmts (d : Nat) : List Stmt → List Stmt
  | [] => []
  | s :: rest => s.shift d :: shiftStmts d rest

def shiftStmt? (d : Nat) : Option Stmt → Option Stmt
  | none => none
  | some s => some (s.shift d)

def Declaration.shift (d : Nat) : Declaration → Declaration
  | ⟨kind, declarators, s⟩ => ⟨kind, shiftDeclarators d declarators, s.shift d⟩

def Declarator.shift (d : Nat) : Declarator → Declarator
  | ⟨target, init, s⟩ => ⟨target.shift d, shiftExpr? d init, s.shift d⟩

def shiftDeclarators (d : Nat) : List Declarator → List Declarator
  | [] => []
  | x :: rest => x.shift d :: shiftDeclarators d rest

def ForInit.shift (d : Nat) : ForInit → ForInit
  | .nothing => .nothing
  | .declaration decl => .declaration (decl.shift d)
  | .expression value => .expression (value.shift d)

def Handler.shift (d : Nat) : Handler → Handler
  | .nothing => .nothing
  | .catch_ s param body => .catch_ (s.shift d) (shiftPattern? d param) (body.shift d)

def Case.shift (d : Nat) : Case → Case
  | ⟨test, body, s⟩ => ⟨shiftExpr? d test, shiftStmts d body, s.shift d⟩

def shiftCases (d : Nat) : List Case → List Case
  | [] => []
  | c :: rest => c.shift d :: shiftCases d rest

end

/-! ### Parts of a tree -/

variable (d : Nat)

@[simp] theorem Expr.shift_span (e : Expr) : (e.shift d).span = e.span.shift d := by
  cases e <;> rfl

@[simp] theorem Pattern.shift_span (p : Pattern) : (p.shift d).span = p.span.shift d := by
  cases p <;> rfl

theorem shiftExprs_eq (es : List Expr) : shiftExprs d es = es.map (Expr.shift d) := by
  induction es with
  | nil => rfl
  | cons e es ih => rw [shiftExprs, ih, List.map_cons]

theorem shiftItems_eq (is : List Item) : shiftItems d is = is.map (Item.shift d) := by
  induction is with
  | nil => rfl
  | cons i is ih => rw [shiftItems, ih, List.map_cons]

theorem shiftMembers_eq (ms : List Member) : shiftMembers d ms = ms.map (Member.shift d) := by
  induction ms with
  | nil => rfl
  | cons m ms ih => rw [shiftMembers, ih, List.map_cons]

theorem shiftElements_eq (ps : List (Option Pattern)) :
    shiftElements d ps = ps.map (Option.map (Pattern.shift d)) := by
  induction ps with
  | nil => rfl
  | cons p ps ih =>
    rw [shiftElements, ih, List.map_cons]
    cases p <;> rfl

theorem shiftPatterns_eq (ps : List Pattern) : shiftPatterns d ps = ps.map (Pattern.shift d) := by
  induction ps with
  | nil => rfl
  | cons p ps ih => rw [shiftPatterns, ih, List.map_cons]

theorem shiftProperties_eq (ps : List PatternProperty) :
    shiftProperties d ps = ps.map (PatternProperty.shift d) := by
  induction ps with
  | nil => rfl
  | cons p ps ih => rw [shiftProperties, ih, List.map_cons]

theorem shiftStmts_eq (ss : List Stmt) : shiftStmts d ss = ss.map (Stmt.shift d) := by
  induction ss with
  | nil => rfl
  | cons s ss ih => rw [shiftStmts, ih, List.map_cons]

theorem shiftDeclarators_eq (ds : List Declarator) :
    shiftDeclarators d ds = ds.map (Declarator.shift d) := by
  induction ds with
  | nil => rfl
  | cons x ds ih => rw [shiftDeclarators, ih, List.map_cons]

theorem shiftCases_eq (cs : List Case) : shiftCases d cs = cs.map (Case.shift d) := by
  induction cs with
  | nil => rfl
  | cons c cs ih => rw [shiftCases, ih, List.map_cons]

/-! ### Free return statements -/

mutual

theorem Stmt.freeReturn?_shift (d : Nat) :
    ∀ s : Stmt, (s.shift d).freeReturn? = s.freeReturn?.map (Span.shift d)
  | .return_ _ _ => rfl
  | .block _ b => b.freeReturn?_shift d
  | .if_ _ _ yes no => by
    simp [Stmt.shift, Stmt.freeReturn?, yes.freeReturn?_shift d, optionFreeReturn?_shift d no,
      Option.map_or]
  | .for_ _ _ _ _ body => body.freeReturn?_shift d
  | .forEach _ _ _ _ _ body => body.freeReturn?_shift d
  | .while_ _ _ body => body.freeReturn?_shift d
  | .doWhile _ body _ => body.freeReturn?_shift d
  | .try_ _ block handler finalizer => by
    simp [Stmt.shift, Stmt.freeReturn?, block.freeReturn?_shift d, handler.freeReturn?_shift d,
      blockFreeReturn?_shift d finalizer, Option.map_or]
  | .switch _ _ cases => casesFreeReturn?_shift d cases
  | .expression _ _ | .declaration _ _ | .function _ _ | .empty _ | .break_ _ | .continue_ _
  | .throw_ _ _ => rfl

theorem optionFreeReturn?_shift (d : Nat) :
    ∀ s : Option Stmt, optionFreeReturn? (shiftStmt? d s) = (optionFreeReturn? s).map (Span.shift d)
  | none => rfl
  | some s => s.freeReturn?_shift d

theorem Block.freeReturn?_shift (d : Nat) :
    ∀ b : Block, (b.shift d).freeReturn? = b.freeReturn?.map (Span.shift d)
  | ⟨body, _⟩ => firstFreeReturn?_shift d body

theorem blockFreeReturn?_shift (d : Nat) :
    ∀ b : Option Block, blockFreeReturn? (shiftBlock? d b) = (blockFreeReturn? b).map (Span.shift d)
  | none => rfl
  | some b => b.freeReturn?_shift d

theorem Handler.freeReturn?_shift (d : Nat) :
    ∀ h : Handler, (h.shift d).freeReturn? = h.freeReturn?.map (Span.shift d)
  | .nothing => rfl
  | .catch_ _ _ body => body.freeReturn?_shift d

theorem Case.freeReturn?_shift (d : Nat) :
    ∀ c : Case, (c.shift d).freeReturn? = c.freeReturn?.map (Span.shift d)
  | ⟨_, body, _⟩ => firstFreeReturn?_shift d body

theorem casesFreeReturn?_shift (d : Nat) :
    ∀ cs : List Case, casesFreeReturn? (shiftCases d cs) = (casesFreeReturn? cs).map (Span.shift d)
  | [] => rfl
  | c :: rest => by
    simp [shiftCases, casesFreeReturn?, c.freeReturn?_shift d, casesFreeReturn?_shift d rest,
      Option.map_or]

theorem firstFreeReturn?_shift (d : Nat) :
    ∀ ss : List Stmt, firstFreeReturn? (shiftStmts d ss) = (firstFreeReturn? ss).map (Span.shift d)
  | [] => rfl
  | s :: rest => by
    simp [shiftStmts, firstFreeReturn?, s.freeReturn?_shift d, firstFreeReturn?_shift d rest,
      Option.map_or]

end

namespace Tree

/-! ### Groups of operands -/

def shiftWaiting (d : Nat) (w : Waiting) : Waiting :=
  w.map fun (e, op) => (e.shift d, op)

def shiftChain (d : Nat) (rest : List (InfixOp × Expr)) : List (InfixOp × Expr) :=
  rest.map fun (op, e) => (op, e.shift d)

theorem joinOperands_shift (op : InfixOp) (left right : Expr) :
    joinOperands op (left.shift d) (right.shift d) = (joinOperands op left right).shift d := by
  cases op <;> simp [joinOperands, Expr.shift, Span.shift]

theorem settle_shift (next : InfixOp) (w : Waiting) (right : Expr) :
    settle next (shiftWaiting d w) (right.shift d) =
      (shiftWaiting d (settle next w right).1, (settle next w right).2.shift d) := by
  induction w generalizing right with
  | nil => rfl
  | cons head w ih =>
    obtain ⟨left, op⟩ := head
    simp only [shiftWaiting, List.map_cons, settle]
    split
    · rw [joinOperands_shift]
      exact ih _
    · rfl

theorem settleAll_shift (w : Waiting) (right : Expr) :
    settleAll (shiftWaiting d w) (right.shift d) = (settleAll w right).shift d := by
  induction w generalizing right with
  | nil => rfl
  | cons head w ih =>
    obtain ⟨left, op⟩ := head
    simp only [shiftWaiting, List.map_cons, settleAll, joinOperands_shift]
    exact ih _

theorem climb_shift (w : Waiting) (last : Expr) (rest : List (InfixOp × Expr)) :
    climb (shiftWaiting d w) (last.shift d) (shiftChain d rest) = (climb w last rest).shift d := by
  induction rest generalizing w last with
  | nil => exact settleAll_shift d w last
  | cons head rest ih =>
    obtain ⟨op, operand⟩ := head
    simp only [shiftChain, List.map_cons, climb, settle_shift]
    exact ih (((settle op w last).2, op) :: (settle op w last).1) operand

theorem group_shift (first : Expr) (rest : List (InfixOp × Expr)) :
    group (first.shift d) (shiftChain d rest) = (group first rest).shift d :=
  climb_shift d [] first rest

end Tree

end Scriptlet
