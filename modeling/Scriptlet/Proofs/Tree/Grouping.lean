import Mathlib.Data.List.Forall2
import Scriptlet.Tree.Expression

/-!
Chains of operands are grouped by how tightly their operators bind.

A grouping is a tree over the operands of one chain, which may themselves be expressions with
operators. Main statement: exactly one grouping of a chain has under every operator only operators
that bind tighter, or as tightly on the side that the operator associates to; and the expression of
that grouping is what is built for the chain.
-/

namespace Scriptlet.Tree

open Grammar (Rule)

/-- The operators by how tightly they bind, the loosest first. -/
def precedence : List (List InfixOp) :=
  [[.logical .nullish], [.logical .or], [.logical .and], [.binary (.arith .bitOr)],
    [.binary (.arith .bitXor)], [.binary (.arith .bitAnd)],
    [.binary .equal, .binary .notEqual, .binary .strictEqual, .binary .strictNotEqual],
    [.binary .less, .binary .lessEqual, .binary .greater, .binary .greaterEqual,
      .binary .instanceOf, .binary .in_],
    [.binary (.arith .shiftLeft), .binary (.arith .shiftRight),
      .binary (.arith .unsignedShiftRight)],
    [.binary (.arith .add), .binary (.arith .subtract)],
    [.binary (.arith .multiply), .binary (.arith .divide), .binary (.arith .modulo)],
    [.binary (.arith .exponent)]]

/-- The place of an operator among the loosest, second loosest and so on. -/
def tightness (op : InfixOp) : Nat :=
  precedence.findIdx (·.contains op)

theorem level_eq_tightness (op : InfixOp) : op.level = tightness op + 1 := by
  cases op with
  | logical op => cases op <;> rfl
  | binary op =>
    cases op with
    | arith op => cases op <;> rfl
    | _ => rfl

theorem rightAssociative_iff (op : InfixOp) :
    op.rightAssociative = true ↔ op = .binary (.arith .exponent) := by
  cases op with
  | logical op => cases op <;> decide
  | binary op =>
    cases op with
    | arith op => cases op <;> decide
    | _ => decide

/-- The rule of an operator between operands. -/
def infixRule : InfixOp → Rule
  | .binary .in_ => .keyword .in_
  | .binary .instanceOf => .keyword .instanceof_
  | op => .infixOp op

theorem infixOp_of_rule {p : Part} {op : InfixOp} (rule : p.rule = infixRule op) :
    p.infixOp = .ok op := by
  unfold Part.infixOp
  rw [rule]
  cases op with
  | logical op => rfl
  | binary op => cases op <;> rfl

/-- The operands of a chain grouped by its operators. -/
inductive Grouping where
  | operand (e : Expr)
  | node (op : InfixOp) (left right : Grouping)

namespace Grouping

/-- The expression of a grouping; each node reaches from its left operand to its right one. -/
def toExpr : Grouping → Expr
  | .operand e => e
  | .node (.logical op) left right =>
    .logical ⟨left.toExpr.span.start, right.toExpr.span.stop⟩ op left.toExpr right.toExpr
  | .node (.binary op) left right =>
    .binary ⟨left.toExpr.span.start, right.toExpr.span.stop⟩ op left.toExpr right.toExpr

/-- The operator at the root, unless the grouping is an operand. -/
def root? : Grouping → Option InfixOp
  | .operand _ => none
  | .node op _ _ => some op

/-- The leftmost operand. -/
def first : Grouping → Expr
  | .operand e => e
  | .node _ left _ => left.first

/-- The operators and operands after the leftmost one, from left to right. -/
def rest : Grouping → List (InfixOp × Expr)
  | .operand _ => []
  | .node op left right => left.rest ++ (op, right.first) :: right.rest

end Grouping

/-- Whether `o` may stand at the root of the left operand of `op`. -/
def FitsLeft (op o : InfixOp) : Prop :=
  tightness op < tightness o ∨ tightness op = tightness o ∧ o ≠ .binary (.arith .exponent)

/-- Whether `o` may stand at the root of the right operand of `op`. -/
def FitsRight (op o : InfixOp) : Prop :=
  tightness op < tightness o ∨ tightness op = tightness o ∧ o = .binary (.arith .exponent)

/-- Every operator of a grouping has under it what may stand there. -/
def Grouping.Obeys : Grouping → Prop
  | .operand _ => True
  | .node op left right =>
    (∀ o ∈ left.root?, FitsLeft op o) ∧ (∀ o ∈ right.root?, FitsRight op o) ∧ left.Obeys ∧
      right.Obeys

theorem takesOperand_iff {a b : InfixOp} : takesOperand a b = true ↔
    tightness b < tightness a ∨ tightness a = tightness b ∧ a ≠ .binary (.arith .exponent) := by
  have assoc := rightAssociative_iff a
  simp only [takesOperand, level_eq_tightness, Bool.or_eq_true, decide_eq_true_eq, Bool.and_eq_true,
    beq_iff_eq, Bool.not_eq_true', ← Bool.not_eq_true, assoc]
  simp only [Nat.add_lt_add_iff_right, Nat.add_right_cancel_iff, ne_eq]

theorem exponent_of_tightness_eq {a b : InfixOp} (same : tightness a = tightness b) :
    a = .binary (.arith .exponent) ↔ b = .binary (.arith .exponent) := by
  rw [← rightAssociative_iff, ← rightAssociative_iff]
  simp only [InfixOp.rightAssociative, level_eq_tightness, same]

theorem fitsLeft_iff {op o : InfixOp} : FitsLeft op o ↔ takesOperand o op = true := by
  rw [takesOperand_iff, FitsLeft, eq_comm]

theorem fitsRight_iff {op o : InfixOp} : FitsRight op o ↔ takesOperand op o = false := by
  rw [← Bool.not_eq_true, takesOperand_iff, FitsRight]
  by_cases same : tightness op = tightness o
  · simp [same, exponent_of_tightness_eq same]
  · simp only [same, false_and, or_false]
    omega

/-- What fits to the left of an operator and has it to its right leaves nothing equally tight to fit
on both sides. -/
theorem not_fitsLeft_of_fitsRight {a b : InfixOp} (right : FitsRight a b) : ¬FitsLeft b a := by
  intro left
  rw [fitsLeft_iff, fitsRight_iff.1 right] at left
  cases left

/-! ### The grouping is unique -/

namespace Grouping

variable {op o : InfixOp} {t u : Grouping}

/-- What binds tighter than something that fits, fits too. -/
theorem fitsLeft_trans {x : InfixOp} (fits : FitsLeft op o) (tighter : tightness o ≤ tightness x) :
    FitsLeft op x := by
  rcases fits with less | ⟨same, assoc⟩
  · exact .inl (Nat.lt_of_lt_of_le less tighter)
  · rcases Nat.lt_or_eq_of_le tighter with less | equal
    · exact .inl (same ▸ less)
    · exact .inr ⟨same.trans equal, fun right => assoc ((exponent_of_tightness_eq equal).2 right)⟩

theorem fitsRight_trans {x : InfixOp} (fits : FitsRight op o)
    (tighter : tightness o ≤ tightness x) :
    FitsRight op x := by
  rcases fits with less | ⟨same, assoc⟩
  · exact .inl (Nat.lt_of_lt_of_le less tighter)
  · rcases Nat.lt_or_eq_of_le tighter with less | equal
    · exact .inl (same ▸ less)
    · exact .inr ⟨same.trans equal, (exponent_of_tightness_eq equal).1 assoc⟩

/-- No operator binds looser than the one at the root. -/
theorem Obeys.root_le (obeys : t.Obeys) (root : t.root? = some op) {q : InfixOp × Expr}
    (member : q ∈ t.rest) : tightness op ≤ tightness q.1 := by
  induction t generalizing op with
  | operand => cases root
  | node op' left right ihl ihr =>
    cases root
    obtain ⟨fitsLeft, fitsRight, obeysLeft, obeysRight⟩ := obeys
    simp only [rest, List.mem_append, List.mem_cons] at member
    rcases member with member | rfl | member
    · cases root : left.root? with
      | none => cases left <;> simp_all [root?, rest]
      | some o =>
        have below := ihl obeysLeft root member
        rcases fitsLeft o root with less | ⟨same, -⟩ <;> omega
    · exact Nat.le_refl _
    · cases root : right.root? with
      | none => cases right <;> simp_all [root?, rest]
      | some o =>
        have below := ihr obeysRight root member
        rcases fitsRight o root with less | ⟨same, -⟩ <;> omega

theorem rest_eq_nil_of_root? (operand : t.root? = none) : t.rest = [] := by
  cases t with
  | operand => rfl
  | node => cases operand

variable {left right : Grouping}

theorem Obeys.fitsLeft_of_mem (obeys : (node op left right).Obeys) {q : InfixOp × Expr}
    (member : q ∈ left.rest) : FitsLeft op q.1 := by
  obtain ⟨fits, -, below, -⟩ := obeys
  cases root : left.root? with
  | none => simp [rest_eq_nil_of_root? root] at member
  | some o => exact fitsLeft_trans (fits o root) (below.root_le root member)

theorem Obeys.fitsRight_of_mem (obeys : (node op left right).Obeys) {q : InfixOp × Expr}
    (member : q ∈ right.rest) : FitsRight op q.1 := by
  obtain ⟨-, fits, -, below⟩ := obeys
  cases root : right.root? with
  | none => simp [rest_eq_nil_of_root? root] at member
  | some o => exact fitsRight_trans (fits o root) (below.root_le root member)

/-- The root of an obeying grouping cannot stand further to the right in its chain than the root of
another one. -/
theorem Obeys.not_further {op' : InfixOp} {left' right' : Grouping}
    {between : List (InfixOp × Expr)}
    (obeys : (node op left right).Obeys) (obeys' : (node op' left' right').Obeys)
    (longer : left'.rest = left.rest ++ (op, right.first) :: between)
    (rest : right.rest = between ++ (op', right'.first) :: right'.rest) : False := by
  have ahead : FitsLeft op' op := obeys'.fitsLeft_of_mem (q := (op, right.first)) (by simp [longer])
  have behind : FitsRight op op' :=
    obeys.fitsRight_of_mem (q := (op', right'.first)) (by simp [rest])
  exact not_fitsLeft_of_fitsRight behind ahead

/-- A chain has one obeying grouping at most. -/
theorem Obeys.unique (obeys : t.Obeys) (obeys' : u.Obeys) (first : t.first = u.first)
    (rest : t.rest = u.rest) : t = u := by
  induction t generalizing u with
  | operand e =>
    cases u with
    | operand e' => exact congrArg _ first
    | node => simp [Grouping.rest] at rest
  | node op left right ihl ihr =>
    cases u with
    | operand => simp [Grouping.rest] at rest
    | node op' left' right' =>
      -- the chain is split at the same place by both roots
      have split : left.rest = left'.rest ∧ (op, right.first) :: right.rest =
          (op', right'.first) :: right'.rest := by
        rcases List.append_eq_append_iff.1 rest with ⟨more, longer, tail⟩ | ⟨more, longer, tail⟩
        · cases more with
          | nil => exact ⟨by simpa using longer.symm, by simpa using tail⟩
          | cons q between =>
            simp only [List.cons_append, List.cons.injEq] at tail
            obtain ⟨rfl, tail⟩ := tail
            exact (obeys.not_further obeys' longer tail).elim
        · cases more with
          | nil => exact ⟨by simpa using longer, by simpa using tail.symm⟩
          | cons q between =>
            simp only [List.cons_append, List.cons.injEq] at tail
            obtain ⟨rfl, tail⟩ := tail
            exact (obeys'.not_further obeys longer tail).elim
      obtain ⟨same, tail⟩ := split
      simp only [List.cons.injEq, Prod.mk.injEq] at tail
      obtain ⟨⟨rfl, next⟩, others⟩ := tail
      rw [ihl obeys.2.2.1 obeys'.2.2.1 first same, ihr obeys.2.2.2 obeys'.2.2.2 next others]

/-! ### The grouping that is built -/

theorem toExpr_node (op : InfixOp) (left right : Grouping) :
    (node op left right).toExpr = joinOperands op left.toExpr right.toExpr := by
  cases op <;> rfl

end Grouping

/-- Groupings that wait for a right operand, nearest first. -/
abbrev Unfinished := List (Grouping × InfixOp)

namespace Unfinished

/-- The expressions that wait. -/
def waiting (ps : Unfinished) : Waiting :=
  ps.map fun p => (p.1.toExpr, p.2)

/-- The chain of what waits and of the grouping after it: its leftmost operand. -/
def first : Unfinished → Grouping → Expr
  | [], t => t.first
  | (left, _) :: ps, _ => first ps left

/-- The chain of what waits and of the grouping after it: all but the leftmost operand. -/
def rest : Unfinished → Grouping → List (InfixOp × Expr)
  | [], t => t.rest
  | (left, op) :: ps, t => rest ps left ++ (op, t.first) :: t.rest

/-- Each operator takes what waits before it and leaves what comes after it to the next one. -/
def Obeys : Unfinished → Prop
  | [] => True
  | (left, op) :: ps =>
    left.Obeys ∧ (∀ o ∈ left.root?, FitsLeft op o) ∧ (∀ p ∈ ps.head?, FitsRight p.2 op) ∧ Obeys ps

/-- What waits and the grouping after it obey, and the grouping may stand where it is waited for. -/
structure Ready (ps : Unfinished) (t : Grouping) : Prop where
  waiting : ps.Obeys
  grouped : t.Obeys
  fits : ∀ p ∈ ps.head?, ∀ o ∈ t.root?, FitsRight p.2 o

variable {ps : Unfinished} {t left : Grouping} {op : InfixOp}

theorem first_join : first ((left, op) :: ps) t = first ps (.node op left t) := by
  cases ps <;> rfl

theorem rest_join : rest ((left, op) :: ps) t = rest ps (.node op left t) := by
  cases ps with
  | nil => rfl
  | cons p ps => simp [rest, Grouping.rest, Grouping.first]

/-- The nearest waiting operand may take what comes after it. -/
theorem Ready.join (ready : Ready ((left, op) :: ps) t) : Ready ps (.node op left t) := by
  obtain ⟨⟨obeysLeft, fitsLeft, above, waiting⟩, grouped, fits⟩ := ready
  refine ⟨waiting, ⟨fitsLeft, fits (left, op) rfl, obeysLeft, grouped⟩, ?_⟩
  rintro p first _ ⟨⟩
  exact above p first

theorem Ready.operand (waiting : ps.Obeys) (e : Expr) : Ready ps (.operand e) :=
  ⟨waiting, trivial, by rintro _ _ _ ⟨⟩⟩

/-- Settling leaves the chain as it is, and no choice about the next operator. -/
theorem settle_grouped (next : InfixOp) (ready : Ready ps t)
    (fits : ∀ o ∈ t.root?, FitsLeft next o) :
    ∃ ps' t', settle next ps.waiting t.toExpr = (waiting ps', t'.toExpr) ∧
      first ps' t' = first ps t ∧ rest ps' t' = rest ps t ∧ Obeys ((t', next) :: ps') := by
  induction ps generalizing t with
  | nil =>
    refine ⟨[], t, rfl, rfl, rfl, ready.grouped, fits, ?_, trivial⟩
    rintro _ ⟨⟩
  | cons p ps ih =>
    obtain ⟨left, op⟩ := p
    simp only [waiting, List.map_cons, settle]
    split
    · rename_i takes
      have joined : ∀ o ∈ (Grouping.node op left t).root?, FitsLeft next o := by
        rintro _ ⟨⟩
        exact fitsLeft_iff.2 takes
      obtain ⟨ps', t', settled, start, chain, obeys⟩ := ih ready.join joined
      rw [← Grouping.toExpr_node, first_join, rest_join]
      exact ⟨ps', t', settled, start, chain, obeys⟩
    · rename_i leaves
      refine ⟨(left, op) :: ps, t, rfl, rfl, rfl, ready.grouped, fits, ?_, ready.waiting⟩
      rintro _ ⟨⟩
      exact fitsRight_iff.2 (Bool.not_eq_true _ ▸ leaves)

theorem settleAll_grouped (ready : Ready ps t) :
    ∃ u : Grouping, settleAll ps.waiting t.toExpr = u.toExpr ∧ u.first = first ps t ∧
      u.rest = rest ps t ∧ u.Obeys := by
  induction ps generalizing t with
  | nil => exact ⟨t, rfl, rfl, rfl, ready.grouped⟩
  | cons p ps ih =>
    obtain ⟨left, op⟩ := p
    obtain ⟨u, settled, start, chain, obeys⟩ := ih ready.join
    rw [Grouping.toExpr_node] at settled
    rw [first_join, rest_join]
    exact ⟨u, settled, start, chain, obeys⟩

theorem climb_grouped (waits : ps.Obeys) (last : Expr) (chain : List (InfixOp × Expr)) :
    ∃ u : Grouping, climb ps.waiting last chain = u.toExpr ∧ u.first = first ps (.operand last) ∧
      u.rest = rest ps (.operand last) ++ chain ∧ u.Obeys := by
  induction chain generalizing ps last with
  | nil =>
    obtain ⟨u, settled, start, chain, obeys⟩ := settleAll_grouped (.operand waits last)
    exact ⟨u, settled, start, by simp [chain], obeys⟩
  | cons q chain ih =>
    obtain ⟨op, operand⟩ := q
    obtain ⟨ps', t', settled, start, before, waits'⟩ :=
      settle_grouped op (.operand waits last) (by rintro _ ⟨⟩)
    obtain ⟨u, climbed, start', all, obeys⟩ := ih waits' operand
    refine ⟨u, ?_, ?_, ?_, obeys⟩
    · change settle op ps.waiting last = _ at settled
      simp only [climb, settled]
      exact climbed
    · exact start'.trans start
    · rw [all, ← before]
      simp [rest, Grouping.rest, Grouping.first]

end Unfinished

theorem group_grouped (first : Expr) (chain : List (InfixOp × Expr)) :
    ∃ t : Grouping, group first chain = t.toExpr ∧ t.first = first ∧ t.rest = chain ∧ t.Obeys :=
  @Unfinished.climb_grouped [] trivial first chain

/-! ### Chains of parts -/

variable {first : Part} {rest : List (Part × Part)} {e : Expr}
variable {operands : List (InfixOp × Expr)}

/-- The parts stand for an operator and the operand after it. -/
def StandsFor (parts : Part × Part) (q : InfixOp × Expr) : Prop :=
  parts.1.rule = infixRule q.1 ∧ parts.2.expr = .ok q.2

theorem chain_eq (given : List.Forall₂ StandsFor rest operands) :
    chain (rest.flatMap fun p => [p.1, p.2]) = .ok operands := by
  induction given with
  | nil => rfl
  | cons here _ ih =>
    have next := infixOp_of_rule here.1
    simp only [List.flatMap_cons, List.cons_append, List.nil_append, chain, next, here.2, ih]
    rfl

/-- A chain of operands and operators becomes the expression of the one grouping of it in which,
under every operator, only such operators stand as bind tighter, or as tightly on the side it
associates to. -/
theorem binary_grouped (span : Span) (operand : first.expr = .ok e)
    (given : List.Forall₂ StandsFor rest operands) :
    ∃ t : Grouping,
      binary span (first :: rest.flatMap fun p => [p.1, p.2]) = .ok (.expr t.toExpr) ∧
      (t.first = e ∧ t.rest = operands ∧ t.Obeys) ∧
      ∀ u : Grouping, u.first = e → u.rest = operands → u.Obeys → u = t := by
  obtain ⟨t, built, start, others, obeys⟩ := group_grouped e operands
  refine ⟨t, ?_, ⟨start, others, obeys⟩, fun u start' others' obeys' => ?_⟩
  · rw [binary, operand, chain_eq given, ← built]
    rfl
  · exact obeys'.unique obeys (start'.trans start.symm) (others'.trans others.symm)

/-- `a - b - c ** d ** e < f` -/
theorem binary_grouped_power :
    let name (text : String) : Expr := .identifier default ⟨text, default⟩
    let operand (text : String) : Part := ⟨.identifier, default, .ok (.token text)⟩
    let operator (op : BinaryOp) : Part := ⟨.infixOp (.binary op), default, .ok (.token op.symbol)⟩
    let minus : BinaryOp := .arith .subtract
    let power : BinaryOp := .arith .exponent
    let rest : List (Part × Part) :=
      [(operator minus, operand "b"), (operator minus, operand "c"), (operator power, operand "d"),
        (operator power, operand "e"), (operator .less, operand "f")]
    let operands : List (InfixOp × Expr) :=
      [(.binary minus, name "b"), (.binary minus, name "c"), (.binary power, name "d"),
        (.binary power, name "e"), (.binary .less, name "f")]
    let grouping : Grouping :=
      .node (.binary .less)
        (.node (.binary minus)
          (.node (.binary minus) (.operand (name "a")) (.operand (name "b")))
          (.node (.binary power) (.operand (name "c"))
            (.node (.binary power) (.operand (name "d")) (.operand (name "e")))))
        (.operand (name "f"))
    (operand "a").expr = .ok (name "a") ∧ List.Forall₂ StandsFor rest operands ∧
      binary default (operand "a" :: rest.flatMap fun p => [p.1, p.2]) =
        .ok (.expr grouping.toExpr) := by
  intro name operand operator minus power rest operands grouping
  have first : (operand "a").expr = .ok (name "a") := rfl
  have given : List.Forall₂ StandsFor rest operands :=
    .cons ⟨rfl, rfl⟩
      (.cons ⟨rfl, rfl⟩ (.cons ⟨rfl, rfl⟩ (.cons ⟨rfl, rfl⟩ (.cons ⟨rfl, rfl⟩ .nil))))
  obtain ⟨t, built, -, unique⟩ := binary_grouped default first given
  have obeys : grouping.Obeys := by
    simp only [grouping, Grouping.Obeys, Grouping.root?, FitsLeft, FitsRight]
    decide
  rw [unique grouping rfl rfl obeys]
  exact ⟨first, given, built⟩

end Scriptlet.Tree
