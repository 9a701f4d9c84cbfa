import Scriptlet.Proofs.Shift.Part
import Scriptlet.Tree.Expression

/-!
Literals and expressions that stand further behind.
-/

namespace Scriptlet.Tree

open Grammar (Rule)

variable (d : Nat) (span : Span) (parts : List Part)

/-- What a part of a rule is built from may be shifted before or after. -/
def Shifts (build : Span → List Part → Build Piece) (parts : List Part) : Prop :=
  ∀ d span, build (span.shift d) (shiftParts d parts) = (build span parts).shift d (Piece.shift d)

/-! ### Literals -/

theorem hexNumber_shift (text : String) :
    hexNumber (span.shift d) text = (hexNumber span text).shift d id := by
  unfold hexNumber
  split <;> rfl

theorem decimalNumber_shift (text : String) :
    decimalNumber (span.shift d) text = (decimalNumber span text).shift d id := by
  unfold decimalNumber
  split <;> rfl

theorem number_shift : Shifts number parts := by
  intro d span
  match parts with
  | [] | _ :: _ :: _ => rfl
  | [p] =>
    refine bind_shift fun a => ?_
    cases a with
    | token text =>
      refine ite_shift ?_ ?_
      · rw [hexNumber_shift]
        exact bind_shift fun x => rfl
      · rw [decimalNumber_shift]
        exact bind_shift fun x => rfl
    | _ => rfl

theorem unescapeFrom_shift (fuel index : Nat) (cs : List Char) :
    unescapeFrom fuel (index + d) cs = Build.shift d id (unescapeFrom fuel index cs) := by
  have onward {fuel index width : Nat} {cs : List Char} {add : List Char → List Char}
      (ih : unescapeFrom fuel (index + width + d) cs =
        Build.shift d id (unescapeFrom fuel (index + width) cs)) :
      (unescapeFrom fuel (index + d + width) cs).map add =
        Build.shift d id ((unescapeFrom fuel (index + width) cs).map add) := by
    rw [Nat.add_right_comm, ih]
    exact map_shift fun _ => rfl
  fun_induction unescapeFrom fuel index cs with
  | case1 => rfl
  | case2 fuel => cases fuel <;> rfl
  | case3 fuel index =>
    simp only [unescapeFrom, Build.shift_error, BuildError.shift, Span.shift]
    rw [Nat.add_right_comm]
  | case4 fuel index letter rest length invalid =>
    simp only [unescapeFrom, invalid, Build.shift_error, BuildError.shift, Span.shift]
    rw [Nat.add_right_comm]
  | case5 fuel index letter rest value length chars width ih =>
    simp only [unescapeFrom, chars]
    exact onward ih
  | case6 fuel index c rest plain ih =>
    rw [unescapeFrom]
    · exact onward ih
    · exact plain

theorem unescape_shift (raw : String) (index : Nat) :
    unescape raw (index + d) = Build.shift d id (unescape raw index) := by
  unfold unescape
  simp only [unescapeFrom_shift]
  exact map_shift fun _ => rfl

theorem string_shift : Shifts string parts := by
  intro d span
  match parts with
  | [] | _ :: _ :: _ => rfl
  | [p] =>
    refine bind_shift fun a => ?_
    cases a with
    | token raw =>
      change (unescape raw (p.span.start + d) >>= _) = _
      rw [unescape_shift]
      exact bind_shift fun _ => rfl
    | _ => rfl

theorem templateParts_shift (current : String) :
    templateParts (shiftParts d parts) current =
      (templateParts parts current).shift d fun (quasis, es) =>
        (quasis, es.map (Expr.shift d)) := by
  induction parts generalizing current with
  | nil => rfl
  | cons p rest ih =>
    have embedded : (do
          let e ← (p.shift d).expr
          let (quasis, es) ← templateParts (shiftParts d rest) ""
          return (current :: quasis, e :: es)) =
        Build.shift d (fun (quasis, es) => (quasis, es.map (Expr.shift d))) (do
          let e ← p.expr
          let (quasis, es) ← templateParts rest ""
          return (current :: quasis, e :: es)) := by
      rw [expr_shift, ih]
      exact bind_shift fun e => bind_shift fun _ => rfl
    refine bind_shift fun a => ?_
    cases a with
    | token raw =>
      change (unescape raw (p.span.start + d) >>= _) = _
      rw [unescape_shift]
      exact bind_shift fun text => ih (current ++ text)
    | _ => exact embedded

theorem template_shift : Shifts template parts := by
  intro d span
  unfold template
  rw [templateParts_shift]
  refine bind_shift fun made => ?_
  obtain ⟨quasis, es⟩ := made
  simp [Piece.shift, Expr.shift, shiftExprs_eq]

theorem boolean_shift :
    boolean (span.shift d) (shiftParts d parts) = (boolean span parts).shift d := by
  simp only [boolean, shiftParts, Piece.shift, Expr.shift, List.any_map]
  rfl

/-! ### Operators -/

theorem expression_shift : Shifts expression parts := by
  intro d span
  unfold expression
  rw [each_shift expr_shift]
  refine bind_shift fun es => ?_
  match es with
  | [e] => rfl
  | [] | _ :: _ :: _ => simp [Piece.shift, Expr.shift, shiftExprs_eq]

theorem simpleTarget_shift (e : Expr) :
    simpleTarget (e.shift d) = Build.shift d (Pattern.shift d) (simpleTarget e) := by
  cases e <;> rfl

mutual

theorem toPattern_shift (d : Nat) :
    ∀ e : Expr, toPattern (e.shift d) = Build.shift d (Pattern.shift d) (toPattern e)
  | .array span items => by
    simp only [Expr.shift, toPattern, itemPatterns_shift d items]
    exact map_shift fun ps => by rw [Pattern.shift, shiftElements_eq]
  | .object span members => by
    simp only [Expr.shift, toPattern, memberPatterns_shift d members]
    exact map_shift fun made => by rw [Pattern.shift, shiftProperties_eq]
  | .assign span op target value => by
    cases op <;> rfl
  | .identifier _ _ | .member _ _ _ | .number _ _ | .string _ _ | .boolean _ _ | .null _
  | .template _ _ _ | .this _ | .function _ _ | .unary _ _ _ | .update _ _ _ _ | .binary _ _ _ _
  | .logical _ _ _ _ | .conditional _ _ _ _ | .call _ _ _ | .new _ _ _ | .sequence _ _ => rfl

theorem itemPatterns_shift (d : Nat) : ∀ items : List Item, itemPatterns (shiftItems d items) =
    Build.shift d (List.map (Option.map (Pattern.shift d))) (itemPatterns items)
  | [] => rfl
  | .hole :: rest => by
    simp only [shiftItems, Item.shift, itemPatterns, itemPatterns_shift d rest]
    exact bind_shift fun _ => rfl
  | .one e :: rest => by
    simp only [shiftItems, Item.shift, itemPatterns, toPattern_shift d e, itemPatterns_shift d rest]
    exact bind_shift fun _ => bind_shift fun _ => rfl
  | .spread e :: [] => by
    simp only [shiftItems, Item.shift, itemPatterns, toPattern_shift d e]
    exact bind_shift fun _ => by simp [Pattern.shift]
  | .spread e :: _ :: _ => by
    simp [shiftItems, Item.shift, itemPatterns, BuildError.shift]

theorem memberPatterns_shift (d : Nat) : ∀ members : List Member,
    memberPatterns (shiftMembers d members) = Build.shift d
      (fun (ps, r) => (ps.map (PatternProperty.shift d), shiftPattern? d r))
        (memberPatterns members)
  | [] => rfl
  | .property key value :: rest => by
    simp only [shiftMembers, Member.shift, memberPatterns, toPattern_shift d value,
      memberPatterns_shift d rest]
    exact bind_shift fun _ => bind_shift fun _ => rfl
  | .spread e :: [] => by
    simp only [shiftMembers, Member.shift, memberPatterns, simpleTarget_shift]
    exact bind_shift fun _ => rfl
  | .spread e :: _ :: _ => by
    simp [shiftMembers, Member.shift, memberPatterns, BuildError.shift]

end

theorem assignment_shift : Shifts assignment parts := by
  intro d span
  match parts with
  | [] | [_, _] | _ :: _ :: _ :: _ :: _ => rfl
  | [p] =>
    simp only [shiftParts, List.map_cons, List.map_nil, assignment, expr_shift]
    exact bind_shift fun _ => rfl
  | [left, operator, value] =>
    simp only [shiftParts, List.map_cons, List.map_nil, assignment, expr_shift, piece_shift]
    refine bind_shift fun left => bind_shift fun op => ?_
    cases op with
    | assignOp op =>
      refine ite_shift ?_ ?_
      · rw [toPattern_shift]
        exact bind_shift fun _ => bind_shift fun _ => rfl
      · rw [simpleTarget_shift]
        exact bind_shift fun _ => bind_shift fun _ => rfl
    | _ => rfl

theorem assignOperator_shift : Shifts assignOperator parts := by
  intro d span
  match parts with
  | [] => rfl
  | ⟨rule, s, m⟩ :: rest => cases rule <;> cases rest <;> rfl

theorem conditional_shift : Shifts conditional parts := by
  intro d span
  match parts with
  | [] | [_, _] | _ :: _ :: _ :: _ :: _ => rfl
  | [p] =>
    simp only [shiftParts, List.map_cons, List.map_nil, conditional, expr_shift]
    exact bind_shift fun _ => rfl
  | [test, yes, no] =>
    simp only [shiftParts, List.map_cons, List.map_nil, conditional, expr_shift]
    exact bind_shift fun _ => bind_shift fun _ => bind_shift fun _ => rfl

theorem chain_shift : ∀ parts : List Part,
    chain (shiftParts d parts) = (chain parts).shift d (shiftChain d)
  | [] | [_] => rfl
  | op :: operand :: rest => by
    have later := chain_shift rest
    simp only [shiftParts, List.map_cons] at later ⊢
    simp only [chain, infixOp_shift, expr_shift, later]
    exact bind_shift fun _ => bind_shift fun _ => bind_shift fun _ => rfl

theorem binary_shift : Shifts binary parts := by
  intro d span
  match parts with
  | [] => rfl
  | first :: rest =>
    have later := chain_shift d rest
    simp only [shiftParts, List.map_cons] at later ⊢
    simp only [binary, expr_shift, later]
    refine bind_shift fun first => bind_shift fun rest => ?_
    rw [group_shift]
    rfl

theorem leading_shift : Shifts leading parts := by
  intro d span
  match parts with
  | [] => rfl
  | ⟨rule, s, m⟩ :: rest =>
    cases rule with
    | keyword k => cases k <;> cases rest <;> rfl
    | _ => cases rest <;> rfl

theorem checkUpdatable_shift (e : Expr) :
    checkUpdatable (e.shift d) = (checkUpdatable e).shift d id := by
  cases e <;> rfl

theorem applyLeading_shift (start : Nat) (op : Leading) (e : Expr) :
    applyLeading (start + d) op (e.shift d) = (applyLeading start op e).shift d (Expr.shift d) := by
  cases op with
  | unary op => simp [applyLeading, Expr.shift, Span.shift]
  | update op =>
    simp only [applyLeading, checkUpdatable_shift, Expr.shift_span]
    exact map_shift fun _ => rfl

/-- The operators before an operand that there is. -/
theorem unaryChain_shift : ∀ parts : List Part, parts ≠ [] →
    unaryChain (shiftParts d parts) = (unaryChain parts).shift d (Expr.shift d)
  | [], full => absurd rfl full
  | [operand], _ => expr_shift operand
  | operator :: operand :: rest, _ => by
    have later := unaryChain_shift (operand :: rest) (by simp)
    simp only [shiftParts, List.map_cons] at later ⊢
    simp only [unaryChain, later, piece_shift]
    refine bind_shift fun e => bind_shift fun a => ?_
    cases a with
    | leading op => exact applyLeading_shift d operator.span.start op e
    | _ => rfl

theorem postfixOperator_shift : Shifts postfixOperator parts := by
  intro d span
  match parts with
  | [] => rfl
  | ⟨rule, s, m⟩ :: rest => cases rule <;> cases rest <;> rfl

theorem update_shift : Shifts update parts := by
  intro d span
  match parts with
  | [] | _ :: _ :: _ :: _ => rfl
  | [p] =>
    simp only [shiftParts, List.map_cons, List.map_nil, update, expr_shift]
    exact bind_shift fun _ => rfl
  | [argument, operator] =>
    simp only [shiftParts, List.map_cons, List.map_nil, update, expr_shift, piece_shift]
    refine bind_shift fun e => bind_shift fun a => ?_
    cases a with
    | update op =>
      simp only [Piece.shift, checkUpdatable_shift]
      exact bind_shift fun _ => rfl
    | _ => rfl

/-! ### Members and calls -/

theorem applySuffix_shift (e : Expr) (stop : Nat) (s : Suffix) :
    applySuffix (e.shift d) (stop + d) (s.shift d) = (applySuffix e stop s).shift d := by
  cases s <;> simp [applySuffix, Suffix.shift, Expr.shift, MemberKey.shift, Span.shift]

theorem applySuffixes_shift (e : Expr) :
    applySuffixes (e.shift d) (shiftParts d parts) =
      (applySuffixes e parts).shift d (Expr.shift d) := by
  induction parts generalizing e with
  | nil => rfl
  | cons p rest ih =>
    refine bind_shift fun a => ?_
    cases a with
    | suffix s =>
      rw [← ih, ← applySuffix_shift]
      rfl
    | _ => rfl

theorem leftHandSide_shift : Shifts leftHandSide parts := by
  intro d span
  match parts with
  | [] => rfl
  | base :: suffixes =>
    have later := applySuffixes_shift d suffixes
    simp only [shiftParts, List.map_cons] at later ⊢
    simp only [leftHandSide, expr_shift]
    refine bind_shift fun e => ?_
    rw [later]
    exact bind_shift fun _ => rfl

theorem constructed_shift (callee : Expr) (arguments : List Item) :
    constructed (callee.shift d) (shiftItems d arguments) (shiftParts d parts) =
      (constructed callee arguments parts).shift d fun (e, is) => (e.shift d, shiftItems d is) := by
  induction parts generalizing callee arguments with
  | nil => rfl
  | cons p rest ih =>
    refine bind_shift fun a => ?_
    cases a with
    | suffix s =>
      cases s with
      | call arguments =>
        rw [← ih]
        rfl
      | static | computed =>
        rw [← ih, ← applySuffix_shift]
        rfl
    | _ => rfl

theorem newExpression_shift : Shifts newExpression parts := by
  intro d span
  match parts with
  | [] | [_] => rfl
  | word :: base :: suffixes =>
    have later (e : Expr) := constructed_shift d suffixes e []
    simp only [shiftParts, List.map_cons, shiftItems] at later ⊢
    simp only [newExpression, expr_shift]
    refine bind_shift fun e => ?_
    rw [later]
    exact bind_shift fun _ => rfl

theorem staticMember_shift : Shifts staticMember parts := by
  intro d span
  match parts with
  | [] | _ :: _ :: _ => rfl
  | [p] =>
    simp only [shiftParts, List.map_cons, List.map_nil, staticMember, name_shift]
    exact bind_shift fun _ => rfl

theorem computedMember_shift : Shifts computedMember parts := by
  intro d span
  match parts with
  | [] | _ :: _ :: _ => rfl
  | [p] =>
    simp only [shiftParts, List.map_cons, List.map_nil, computedMember, expr_shift]
    exact bind_shift fun _ => rfl

theorem item_shift (p : Part) : item (p.shift d) = (item p).shift d (Item.shift d) := by
  refine bind_shift fun a => ?_
  cases a with
  | spread e => rfl
  | _ =>
    rw [expr_shift]
    exact bind_shift fun _ => rfl

theorem arguments_shift :
    arguments (shiftParts d parts) = (arguments parts).shift d (Piece.shift d) := by
  unfold arguments
  rw [each_shift (item_shift d)]
  exact bind_shift fun items => by simp [Piece.shift, Suffix.shift, shiftItems_eq]

theorem spread_shift : Shifts spread parts := by
  intro d span
  match parts with
  | [] | _ :: _ :: _ => rfl
  | [p] =>
    simp only [shiftParts, List.map_cons, List.map_nil, spread, expr_shift]
    exact bind_shift fun _ => rfl

theorem wrapped_shift : Shifts wrapped parts := by
  intro d span
  match parts with
  | [] | _ :: _ :: _ => rfl
  | [p] =>
    simp only [shiftParts, List.map_cons, List.map_nil, wrapped, expr_shift]
    exact bind_shift fun _ => rfl

/-! ### Collections -/

theorem arraySlot_shift : Shifts arraySlot parts := by
  intro d span
  match parts with
  | [] | _ :: _ :: _ => rfl
  | [p] =>
    simp only [shiftParts, List.map_cons, List.map_nil, arraySlot, item_shift]
    exact bind_shift fun _ => rfl

theorem slotItem_shift (p : Part) : slotItem (p.shift d) = (slotItem p).shift d (Item.shift d) := by
  refine bind_shift fun a => ?_
  cases a <;> rfl

theorem dropLastHole_shift (items : List Item) :
    dropLastHole (items.map (Item.shift d)) = (dropLastHole items).map (Item.shift d) := by
  unfold dropLastHole
  rw [List.getLast?_map]
  cases items.getLast? with
  | none => rfl
  | some i => cases i <;> simp [Item.shift]

theorem arrayLiteral_shift : Shifts arrayLiteral parts := by
  intro d span
  unfold arrayLiteral
  rw [each_shift (slotItem_shift d)]
  exact bind_shift fun items => by
    simp [Piece.shift, Expr.shift, shiftItems_eq, dropLastHole_shift]

theorem objectMember_shift (p : Part) :
    objectMember (p.shift d) = (objectMember p).shift d (Member.shift d) := by
  refine bind_shift fun a => ?_
  cases a <;> rfl

theorem objectLiteral_shift : Shifts objectLiteral parts := by
  intro d span
  unfold objectLiteral
  rw [each_shift (objectMember_shift d)]
  exact bind_shift fun members => by simp [Piece.shift, Expr.shift, shiftMembers_eq]

theorem propertyAssignment_shift : Shifts propertyAssignment parts := by
  intro d span
  match parts with
  | [] | [_] | _ :: _ :: _ :: _ => rfl
  | [key, value] =>
    simp only [shiftParts, List.map_cons, List.map_nil, propertyAssignment, key_shift, expr_shift]
    exact bind_shift fun _ => bind_shift fun _ => rfl

theorem method_shift : Shifts method parts := by
  intro d span
  match parts with
  | [] | [_] | [_, _] | _ :: _ :: _ :: _ :: _ => rfl
  | [key, params, body] =>
    simp only [shiftParts, List.map_cons, List.map_nil, method, key_shift, parameters_shift,
      block_shift]
    refine bind_shift fun _ => bind_shift fun _ => bind_shift fun _ => ?_
    simp [Piece.shift, Member.shift, Expr.shift, Function.shift, FunctionBody.shift,
      shiftPatterns_eq]

theorem shorthand_shift : Shifts shorthand parts := by
  intro d span
  match parts with
  | [] | _ :: _ :: _ => rfl
  | [p] =>
    simp only [shiftParts, List.map_cons, List.map_nil, shorthand, name_shift]
    exact bind_shift fun _ => rfl

theorem propertyKey_shift : Shifts propertyKey parts := by
  intro d span
  match parts with
  | [] | _ :: _ :: _ => rfl
  | [p] =>
    refine bind_shift fun a => ?_
    cases a <;> rfl

end Scriptlet.Tree
