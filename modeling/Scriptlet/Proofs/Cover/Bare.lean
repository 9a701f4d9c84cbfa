import Scriptlet.Proofs.Shift.Tree

/-!
Program trees without their places.

Two trees that are equal without the spans of their parts were read from texts that say the same. A
shift moves spans only (`Expr.bare_shift` and the lemmas beside it).
-/

namespace Scriptlet

def Name.bare (n : Name) : Name :=
  ⟨n.text, default⟩

mutual

def Expr.bare : Expr → Expr
  | .number _ value => .number default value
  | .string _ value => .string default value
  | .boolean _ value => .boolean default value
  | .null _ => .null default
  | .template _ quasis parts => .template default quasis (bareExprs parts)
  | .identifier _ name => .identifier default name.bare
  | .this _ => .this default
  | .array _ items => .array default (bareItems items)
  | .object _ members => .object default (bareMembers members)
  | .function _ fn => .function default fn.bare
  | .unary _ op argument => .unary default op argument.bare
  | .update _ op before argument => .update default op before argument.bare
  | .binary _ op left right => .binary default op left.bare right.bare
  | .logical _ op left right => .logical default op left.bare right.bare
  | .assign _ op target value => .assign default op target.bare value.bare
  | .conditional _ test yes no => .conditional default test.bare yes.bare no.bare
  | .call _ callee arguments => .call default callee.bare (bareItems arguments)
  | .new _ callee arguments => .new default callee.bare (bareItems arguments)
  | .member _ object key => .member default object.bare key.bare
  | .sequence _ items => .sequence default (bareExprs items)

def bareExprs : List Expr → List Expr
  | [] => []
  | e :: rest => e.bare :: bareExprs rest

def bareExpr? : Option Expr → Option Expr
  | none => none
  | some e => some e.bare

def Item.bare : Item → Item
  | .one value => .one value.bare
  | .spread value => .spread value.bare
  | .hole => .hole

def bareItems : List Item → List Item
  | [] => []
  | i :: rest => i.bare :: bareItems rest

def Member.bare : Member → Member
  | .property key value => .property key.bare value.bare
  | .spread value => .spread value.bare

def bareMembers : List Member → List Member
  | [] => []
  | m :: rest => m.bare :: bareMembers rest

def PropertyKey.bare : PropertyKey → PropertyKey
  | .static text => .static text
  | .number value => .number value
  | .computed key => .computed key.bare

def MemberKey.bare : MemberKey → MemberKey
  | .static name => .static name.bare
  | .computed key => .computed key.bare

def Pattern.bare : Pattern → Pattern
  | .identifier _ name => .identifier default name.bare
  | .array _ elements => .array default (bareElements elements)
  | .object _ properties rest => .object default (bareProperties properties) (barePattern? rest)
  | .withDefault _ target value => .withDefault default target.bare value.bare
  | .rest _ target => .rest default target.bare
  | .member _ object key => .member default object.bare key.bare

def barePattern? : Option Pattern → Option Pattern
  | none => none
  | some p => some p.bare

def bareElements : List (Option Pattern) → List (Option Pattern)
  | [] => []
  | p :: rest => barePattern? p :: bareElements rest

def barePatterns : List Pattern → List Pattern
  | [] => []
  | p :: rest => p.bare :: barePatterns rest

def PatternProperty.bare : PatternProperty → PatternProperty
  | ⟨key, value⟩ => ⟨key.bare, value.bare⟩

def bareProperties : List PatternProperty → List PatternProperty
  | [] => []
  | p :: rest => p.bare :: bareProperties rest

def Function.bare : Function → Function
  | ⟨kind, name, params, body, _⟩ =>
    ⟨kind, name.map Name.bare, barePatterns params, body.bare, default⟩

def FunctionBody.bare : FunctionBody → FunctionBody
  | .block body => .block body.bare
  | .expression value => .expression value.bare

def Block.bare : Block → Block
  | ⟨body, _⟩ => ⟨bareStmts body, default⟩

def bareBlock? : Option Block → Option Block
  | none => none
  | some b => some b.bare

def Stmt.bare : Stmt → Stmt
  | .expression _ value => .expression default value.bare
  | .declaration _ decl => .declaration default decl.bare
  | .function _ fn => .function default fn.bare
  | .block _ block => .block default block.bare
  | .empty _ => .empty default
  | .if_ _ test yes no => .if_ default test.bare yes.bare (bareStmt? no)
  | .for_ _ init test update body =>
    .for_ default init.bare (bareExpr? test) (bareExpr? update) body.bare
  | .forEach _ mode declared target subject body =>
    .forEach default mode declared target.bare subject.bare body.bare
  | .while_ _ test body => .while_ default test.bare body.bare
  | .doWhile _ body test => .doWhile default body.bare test.bare
  | .break_ _ => .break_ default
  | .continue_ _ => .continue_ default
  | .return_ _ value => .return_ default (bareExpr? value)
  | .throw_ _ value => .throw_ default value.bare
  | .try_ _ block handler finalizer =>
    .try_ default block.bare handler.bare (bareBlock? finalizer)
  | .switch _ subject cases => .switch default subject.bare (bareCases cases)

def bareStmts : List Stmt → List Stmt
  | [] => []
  | s :: rest => s.bare :: bareStmts rest

def bareStmt? : Option Stmt → Option Stmt
  | none => none
  | some s => some s.bare

def Declaration.bare : Declaration → Declaration
  | ⟨kind, declarators, _⟩ => ⟨kind, bareDeclarators declarators, default⟩

def Declarator.bare : Declarator → Declarator
  | ⟨target, init, _⟩ => ⟨target.bare, bareExpr? init, default⟩

def bareDeclarators : List Declarator → List Declarator
  | [] => []
  | x :: rest => x.bare :: bareDeclarators rest

def ForInit.bare : ForInit → ForInit
  | .nothing => .nothing
  | .declaration decl => .declaration decl.bare
  | .expression value => .expression value.bare

def Handler.bare : Handler → Handler
  | .nothing => .nothing
  | .catch_ _ param body => .catch_ default (barePattern? param) body.bare

def Case.bare : Case → Case
  | ⟨test, body, _⟩ => ⟨bareExpr? test, bareStmts body, default⟩

def bareCases : List Case → List Case
  | [] => []
  | c :: rest => c.bare :: bareCases rest

end

/-! ### Shifted trees -/

@[simp] theorem Name.bare_shift (d : Nat) (n : Name) : (n.shift d).bare = n.bare := rfl

mutual

theorem Expr.bare_shift (d : Nat) : ∀ e : Expr, (e.shift d).bare = e.bare
  | .number _ _ | .string _ _ | .boolean _ _ | .null _ | .identifier _ _ | .this _ => rfl
  | .template _ _ parts => by simp [Expr.shift, Expr.bare, bareExprs_shift d parts]
  | .array _ items => by simp [Expr.shift, Expr.bare, bareItems_shift d items]
  | .object _ members => by simp [Expr.shift, Expr.bare, bareMembers_shift d members]
  | .function _ fn => by simp [Expr.shift, Expr.bare, fn.bare_shift d]
  | .unary _ _ argument | .update _ _ _ argument => by
    simp [Expr.shift, Expr.bare, argument.bare_shift d]
  | .binary _ _ left right | .logical _ _ left right => by
    simp [Expr.shift, Expr.bare, left.bare_shift d, right.bare_shift d]
  | .assign _ _ target value => by
    simp [Expr.shift, Expr.bare, target.bare_shift d, value.bare_shift d]
  | .conditional _ test yes no => by
    simp [Expr.shift, Expr.bare, test.bare_shift d, yes.bare_shift d, no.bare_shift d]
  | .call _ callee arguments | .new _ callee arguments => by
    simp [Expr.shift, Expr.bare, callee.bare_shift d, bareItems_shift d arguments]
  | .member _ object key => by simp [Expr.shift, Expr.bare, object.bare_shift d, key.bare_shift d]
  | .sequence _ items => by simp [Expr.shift, Expr.bare, bareExprs_shift d items]

theorem bareExprs_shift (d : Nat) : ∀ es : List Expr, bareExprs (shiftExprs d es) = bareExprs es
  | [] => rfl
  | e :: rest => by simp [shiftExprs, bareExprs, e.bare_shift d, bareExprs_shift d rest]

theorem bareExpr?_shift (d : Nat) : ∀ e : Option Expr, bareExpr? (shiftExpr? d e) = bareExpr? e
  | none => rfl
  | some e => by simp [shiftExpr?, bareExpr?, e.bare_shift d]

theorem Item.bare_shift (d : Nat) : ∀ i : Item, (i.shift d).bare = i.bare
  | .one value | .spread value => by simp [Item.shift, Item.bare, value.bare_shift d]
  | .hole => rfl

theorem bareItems_shift (d : Nat) : ∀ is : List Item, bareItems (shiftItems d is) = bareItems is
  | [] => rfl
  | i :: rest => by simp [shiftItems, bareItems, i.bare_shift d, bareItems_shift d rest]

theorem Member.bare_shift (d : Nat) : ∀ m : Member, (m.shift d).bare = m.bare
  | .property key value => by simp [Member.shift, Member.bare, key.bare_shift d, value.bare_shift d]
  | .spread value => by simp [Member.shift, Member.bare, value.bare_shift d]

theorem bareMembers_shift (d : Nat) :
    ∀ ms : List Member, bareMembers (shiftMembers d ms) = bareMembers ms
  | [] => rfl
  | m :: rest => by simp [shiftMembers, bareMembers, m.bare_shift d, bareMembers_shift d rest]

theorem PropertyKey.bare_shift (d : Nat) : ∀ k : PropertyKey, (k.shift d).bare = k.bare
  | .static _ | .number _ => rfl
  | .computed key => by simp [PropertyKey.shift, PropertyKey.bare, key.bare_shift d]

theorem MemberKey.bare_shift (d : Nat) : ∀ k : MemberKey, (k.shift d).bare = k.bare
  | .static _ => rfl
  | .computed key => by simp [MemberKey.shift, MemberKey.bare, key.bare_shift d]

theorem Pattern.bare_shift (d : Nat) : ∀ p : Pattern, (p.shift d).bare = p.bare
  | .identifier _ _ => rfl
  | .array _ elements => by simp [Pattern.shift, Pattern.bare, bareElements_shift d elements]
  | .object _ properties rest => by
    simp [Pattern.shift, Pattern.bare, bareProperties_shift d properties, barePattern?_shift d rest]
  | .withDefault _ target value => by
    simp [Pattern.shift, Pattern.bare, target.bare_shift d, value.bare_shift d]
  | .rest _ target => by simp [Pattern.shift, Pattern.bare, target.bare_shift d]
  | .member _ object key => by
    simp [Pattern.shift, Pattern.bare, object.bare_shift d, key.bare_shift d]

theorem barePattern?_shift (d : Nat) :
    ∀ p : Option Pattern, barePattern? (shiftPattern? d p) = barePattern? p
  | none => rfl
  | some p => by simp [shiftPattern?, barePattern?, p.bare_shift d]

theorem bareElements_shift (d : Nat) :
    ∀ ps : List (Option Pattern), bareElements (shiftElements d ps) = bareElements ps
  | [] => rfl
  | p :: rest => by
    simp [shiftElements, bareElements, barePattern?_shift d p, bareElements_shift d rest]

theorem barePatterns_shift (d : Nat) :
    ∀ ps : List Pattern, barePatterns (shiftPatterns d ps) = barePatterns ps
  | [] => rfl
  | p :: rest => by simp [shiftPatterns, barePatterns, p.bare_shift d, barePatterns_shift d rest]

theorem PatternProperty.bare_shift (d : Nat) : ∀ p : PatternProperty, (p.shift d).bare = p.bare
  | ⟨key, value⟩ => by
    simp [PatternProperty.shift, PatternProperty.bare, key.bare_shift d, value.bare_shift d]

theorem bareProperties_shift (d : Nat) :
    ∀ ps : List PatternProperty, bareProperties (shiftProperties d ps) = bareProperties ps
  | [] => rfl
  | p :: rest => by
    simp [shiftProperties, bareProperties, p.bare_shift d, bareProperties_shift d rest]

theorem Function.bare_shift (d : Nat) : ∀ f : Function, (f.shift d).bare = f.bare
  | ⟨_, name, params, body, _⟩ => by
    cases name <;>
      simp [Function.shift, Function.bare, barePatterns_shift d params, body.bare_shift d]

theorem FunctionBody.bare_shift (d : Nat) : ∀ b : FunctionBody, (b.shift d).bare = b.bare
  | .block body => by simp [FunctionBody.shift, FunctionBody.bare, body.bare_shift d]
  | .expression value => by simp [FunctionBody.shift, FunctionBody.bare, value.bare_shift d]

theorem Block.bare_shift (d : Nat) : ∀ b : Block, (b.shift d).bare = b.bare
  | ⟨body, _⟩ => by simp [Block.shift, Block.bare, bareStmts_shift d body]

theorem bareBlock?_shift (d : Nat) : ∀ b : Option Block, bareBlock? (shiftBlock? d b) = bareBlock? b
  | none => rfl
  | some b => by simp [shiftBlock?, bareBlock?, b.bare_shift d]

theorem Stmt.bare_shift (d : Nat) : ∀ s : Stmt, (s.shift d).bare = s.bare
  | .expression _ value => by simp [Stmt.shift, Stmt.bare, value.bare_shift d]
  | .declaration _ decl => by simp [Stmt.shift, Stmt.bare, decl.bare_shift d]
  | .function _ fn => by simp [Stmt.shift, Stmt.bare, fn.bare_shift d]
  | .block _ block => by simp [Stmt.shift, Stmt.bare, block.bare_shift d]
  | .empty _ | .break_ _ | .continue_ _ => rfl
  | .if_ _ test yes no => by
    simp [Stmt.shift, Stmt.bare, test.bare_shift d, yes.bare_shift d, bareStmt?_shift d no]
  | .for_ _ init test update body => by
    simp [Stmt.shift, Stmt.bare, init.bare_shift d, bareExpr?_shift d test,
      bareExpr?_shift d update, body.bare_shift d]
  | .forEach _ _ _ target subject body => by
    simp [Stmt.shift, Stmt.bare, target.bare_shift d, subject.bare_shift d, body.bare_shift d]
  | .while_ _ test body | .doWhile _ body test => by
    simp [Stmt.shift, Stmt.bare, test.bare_shift d, body.bare_shift d]
  | .return_ _ value => by simp [Stmt.shift, Stmt.bare, bareExpr?_shift d value]
  | .throw_ _ value => by simp [Stmt.shift, Stmt.bare, value.bare_shift d]
  | .try_ _ block handler finalizer => by
    simp [Stmt.shift, Stmt.bare, block.bare_shift d, handler.bare_shift d,
      bareBlock?_shift d finalizer]
  | .switch _ subject cases => by
    simp [Stmt.shift, Stmt.bare, subject.bare_shift d, bareCases_shift d cases]

theorem bareStmts_shift (d : Nat) : ∀ ss : List Stmt, bareStmts (shiftStmts d ss) = bareStmts ss
  | [] => rfl
  | s :: rest => by simp [shiftStmts, bareStmts, s.bare_shift d, bareStmts_shift d rest]

theorem bareStmt?_shift (d : Nat) : ∀ s : Option Stmt, bareStmt? (shiftStmt? d s) = bareStmt? s
  | none => rfl
  | some s => by simp [shiftStmt?, bareStmt?, s.bare_shift d]

theorem Declaration.bare_shift (d : Nat) : ∀ x : Declaration, (x.shift d).bare = x.bare
  | ⟨_, declarators, _⟩ => by
    simp [Declaration.shift, Declaration.bare, bareDeclarators_shift d declarators]

theorem Declarator.bare_shift (d : Nat) : ∀ x : Declarator, (x.shift d).bare = x.bare
  | ⟨target, init, _⟩ => by
    simp [Declarator.shift, Declarator.bare, target.bare_shift d, bareExpr?_shift d init]

theorem bareDeclarators_shift (d : Nat) :
    ∀ xs : List Declarator, bareDeclarators (shiftDeclarators d xs) = bareDeclarators xs
  | [] => rfl
  | x :: rest => by
    simp [shiftDeclarators, bareDeclarators, x.bare_shift d, bareDeclarators_shift d rest]

theorem ForInit.bare_shift (d : Nat) : ∀ i : ForInit, (i.shift d).bare = i.bare
  | .nothing => rfl
  | .declaration decl => by simp [ForInit.shift, ForInit.bare, decl.bare_shift d]
  | .expression value => by simp [ForInit.shift, ForInit.bare, value.bare_shift d]

theorem Handler.bare_shift (d : Nat) : ∀ h : Handler, (h.shift d).bare = h.bare
  | .nothing => rfl
  | .catch_ _ param body => by
    simp [Handler.shift, Handler.bare, barePattern?_shift d param, body.bare_shift d]

theorem Case.bare_shift (d : Nat) : ∀ c : Case, (c.shift d).bare = c.bare
  | ⟨test, body, _⟩ => by
    simp [Case.shift, Case.bare, bareExpr?_shift d test, bareStmts_shift d body]

theorem bareCases_shift (d : Nat) : ∀ cs : List Case, bareCases (shiftCases d cs) = bareCases cs
  | [] => rfl
  | c :: rest => by simp [shiftCases, bareCases, c.bare_shift d, bareCases_shift d rest]

end

end Scriptlet
