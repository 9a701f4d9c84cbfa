import Scriptlet.Proofs.Layout.Part
import Scriptlet.Tree.Expression

/-!
Literals and expressions are laid out if their parts are.

The spans of operators reach from their first operand to their last one, and those of members and
calls from what they start with, so each of these has to be shown to consist of whole characters.
-/

namespace Scriptlet.Tree

open Grammar (Rule bytes bytes_append bytes_cons)
open Construct (Formed Laid laid_nil laid_cons laid_single)

variable {source : String} {p : Part} {parts : List Part} {span : Span} {low mid high : Nat}

/-! ### Escapes -/

theorem length_le_bytes (cs : List Char) : cs.length ≤ bytes cs := by
  induction cs with
  | nil => simp
  | cons c cs ih =>
    have := c.utf8Size_pos
    simp only [List.length_cons, bytes_cons]
    omega

theorem byteLength_eq (cs : List Char) : byteLength cs = bytes cs := by
  have shift (n : Nat) : cs.foldl (fun n c => n + c.utf8Size) n = n + bytes cs := by
    induction cs generalizing n with
    | nil => simp
    | cons c cs ih => simp [ih, Nat.add_assoc]
  simpa [byteLength] using shift 0

theorem hexRun_length_le (count : Nat) (cs : List Char) : (hexRun count cs).length ≤ bytes cs := by
  have digits :=
    (List.takeWhile_sublist (l := cs.take count) Grammar.CharClass.hexDigit.holds).length_le
  have taken := cs.length_take_le' count
  have size := length_le_bytes cs
  unfold hexRun
  omega

theorem readUnit_invalid {rest : List Char} {n : Nat} (invalid : readUnit rest = .invalid n) :
    n ≤ 2 + bytes rest := by
  unfold readUnit at invalid
  split at invalid
  · rename_i body
    have size := length_le_bytes body
    have brace := Char.utf8Size_pos '\x7b'
    have digits := (List.takeWhile_sublist (l := body) Grammar.CharClass.hexDigit.holds).length_le
    simp only [bytes_cons]
    simp only at invalid
    split at invalid
    · split at invalid
      · cases invalid
        omega
      · cases invalid
    · rename_i ahead
      have left := congrArg List.length ahead
      simp only [List.length_drop, List.length_cons] at left
      cases invalid
      omega
    · cases invalid
      omega
  · simp only at invalid
    split at invalid
    · cases invalid
    · cases invalid
      have digits := hexRun_length_le 4 rest
      omega

/-- A faulty escape ends before the text does. -/
theorem readEscape_invalid {letter : Char} {rest : List Char} {n : Nat}
    (invalid : readEscape letter rest = .invalid n) : n ≤ 1 + bytes (letter :: rest) := by
  have := letter.utf8Size_pos
  simp only [bytes_cons]
  unfold readEscape at invalid
  split at invalid
  case h_12 =>
    simp only at invalid
    split at invalid
    · cases invalid
      omega
    · cases invalid
  case h_13 =>
    have := readUnit_invalid invalid
    omega
  all_goals cases invalid

/-- The fault of a raw text lies in that text. -/
theorem unescapeFrom_error {fuel index : Nat} {cs : List Char} {e : BuildError}
    (failed : unescapeFrom fuel index cs = .error e) :
    e.span.start ≤ e.span.stop ∧ e.span.stop ≤ index + bytes cs := by
  have step {m : Build (List Char)} {f : List Char → List Char} (failed : m.map f = .error e) :
      m = .error e := by
    cases m with
    | ok => cases failed
    | error => exact failed
  have backslash : '\\'.utf8Size = 1 := rfl
  fun_induction unescapeFrom fuel index cs with
  | case1 => cases failed
  | case2 => cases failed
  | case3 fuel index =>
    cases failed
    simp [backslash]
  | case4 fuel index letter rest length invalid =>
    have fits := readEscape_invalid invalid
    cases failed
    rw [bytes_cons, backslash]
    simpa using fits
  | case5 fuel index letter rest value length _ width ih =>
    have error := ih (step failed)
    have cut := bytes_append (rest.take length) (rest.drop length)
    rw [List.take_append_drop] at cut
    simp only [width, byteLength_eq] at error
    rw [bytes_cons, bytes_cons, backslash]
    omega
  | case6 fuel index c rest _ ih =>
    have error := ih (step failed)
    rw [bytes_cons]
    omega

theorem unescape_placed {raw : String} {index : Nat}
    (fits : index + raw.utf8ByteSize ≤ source.utf8ByteSize) :
    Places source (unescape raw index) fun _ => True := by
  refine .map (P := fun _ => True) ⟨fun _ _ => trivial, fun e failed => ?_⟩ fun _ _ => trivial
  have error := unescapeFrom_error failed
  rw [Grammar.bytes_toList] at error
  exact ⟨error.1, Nat.le_trans error.2 fits⟩

/-! ### Literals -/

theorem hexNumber_placed {text : String} (within : span.Within source) :
    Places source (hexNumber span text) fun _ => True := by
  unfold hexNumber
  split
  · exact .pure trivial
  · exact .fails within.inside

theorem decimalNumber_placed {text : String} (within : span.Within source) :
    Places source (decimalNumber span text) fun _ => True := by
  unfold decimalNumber
  split
  · exact .pure trivial
  · exact .fails within.inside

theorem number_placed (site : Site source span parts) : Placed source span (number span parts) := by
  unfold number
  split
  · obtain ⟨_, part, _⟩ := site.laid
    apply Places.bind part.placed
    intro piece _
    cases piece with
    | token text =>
      simp only
      split
      · exact .bind (hexNumber_placed site.within) fun _ _ => .pure trivial
      · exact .bind (decimalNumber_placed site.within) fun _ _ => .pure trivial
    | _ => exact .unexpected site.within
  · exact .unexpected site.within

theorem string_placed (site : Site source span parts) : Placed source span (string span parts) := by
  unfold string
  split
  · obtain ⟨_, part, _⟩ := site.laid
    apply Places.bind part.placed
    intro piece here
    cases piece with
    | token raw =>
      exact .bind (unescape_placed (Nat.le_trans here part.within.stop_le)) fun _ _ => .pure trivial
    | _ => exact .unexpected site.within
  · exact .unexpected site.within

/-- A text precedes each expression, and one follows the last. -/
theorem templateParts_placed (laid : PartsLaid source low parts high) (current : String) :
    Places source (templateParts parts current) fun made =>
      made.1.length = made.2.length + 1 ∧ Laid source low (made.2.map .expr) high := by
  induction parts generalizing low current with
  | nil => exact .pure ⟨rfl, .nil laid⟩
  | cons p rest ih =>
    obtain ⟨before, part, after⟩ := laid
    have substituted : Places source (do
        let e ← p.expr
        let made ← templateParts rest ""
        return (current :: made.1, e :: made.2)) fun made =>
          made.1.length = made.2.length + 1 ∧ Laid source low (made.2.map .expr) high := by
      apply Places.bind (expr_placed part)
      intro e here
      refine .bind (ih after "") fun made there => .pure ⟨by simp [there.1], ?_⟩
      exact (here.append (Nat.le_refl _) there.2).widen before (Nat.le_refl _)
    apply Places.bind part.placed
    intro piece here
    cases piece with
    | token raw =>
      apply Places.bind (unescape_placed (Nat.le_trans here part.within.stop_le))
      intro text _
      exact ih (after.from_le (Nat.le_trans before part.within.ordered)) _
    | _ => exact substituted

theorem template_placed (site : Site source span parts) :
    Placed source span (template span parts) := by
  refine .bind (templateParts_placed site.laid "") fun made there => .pure ?_
  exact (Formed.of_row (c := .expr (.template span made.1 made.2)) site.within
    (by simpa [Construct.isShaped] using there.1) trivial rfl there.2).laid

theorem boolean_placed (site : Site source span parts) :
    (boolean span parts).Laid source span :=
  (Formed.leaf (c := .expr (.boolean span _)) site.within rfl trivial rfl).laid

/-! ### Operators -/

theorem expression_placed (site : Site source span parts) :
    Placed source span (expression span parts) := by
  apply Places.bind (each_single (fun _ part => expr_placed part) site.laid)
  intro es there
  split
  · exact .pure there
  · exact .pure
      (Formed.of_row (c := .expr (.sequence span es)) site.within rfl trivial rfl there).laid

theorem assignment_placed (site : Site source span parts) :
    Placed source span (assignment span parts) := by
  unfold assignment
  split
  · obtain ⟨before, part, after⟩ := site.laid
    exact .bind (expr_placed part) fun e here => .pure (here.widen before after)
  · rename_i l o v
    obtain ⟨before, first, gap, operator, gap', second, after⟩ := site.laid
    apply Places.bind (expr_placed first)
    intro left there
    obtain ⟨start, formed, stop⟩ := laid_single.1 there
    have assigned {op : AssignOp} {target : Pattern} (fits : op = .plain ∨ target.isPlace = true)
        (takes : Takes source left target) {value : Expr}
        (here : Laid source v.span.start [.expr value] v.span.stop) :
        (Construct.expr (.assign span op target value)).Formed source := by
      have between := Nat.le_trans gap (Nat.le_trans operator.within.ordered gap')
      have row := (takes.laid.widen start stop).append between here
      refine .of_row site.within ?_ trivial rfl (row.widen before after)
      cases op with
      | plain => exact takes.through
      | compound | logical => exact fits.resolve_left nofun
    apply Places.bind operator.placed
    intro piece _
    cases piece with
    | assignOp op =>
      simp only
      split
      · rename_i plain
        apply Places.bind (toPattern_placed formed)
        intro target takes
        exact .bind (expr_placed second) fun value here =>
          .pure (assigned (.inl plain) takes here).laid
      · apply Places.bind (simpleTarget_placed formed)
        intro target takes
        exact .bind (expr_placed second) fun value here =>
          .pure (assigned (.inr takes.1) takes.2 here).laid
    | _ => exact .unexpected operator.within
  · exact .unexpected site.within

theorem assignOperator_placed (site : Site source span parts) :
    Placed source span (assignOperator span parts) := by
  unfold assignOperator
  split
  · exact .pure trivial
  · exact .unexpected site.within

theorem conditional_placed (site : Site source span parts) :
    Placed source span (conditional span parts) := by
  unfold conditional
  split
  · obtain ⟨before, part, after⟩ := site.laid
    exact .bind (expr_placed part) fun e here => .pure (here.widen before after)
  · obtain ⟨before, first, gap, second, gap', third, after⟩ := site.laid
    apply Places.bind (expr_placed first)
    intro test one
    apply Places.bind (expr_placed second)
    intro yes two
    refine .bind (expr_placed third) fun no three => .pure ?_
    exact (Formed.of_row (c := .expr (.conditional span test yes no)) site.within rfl trivial rfl
      (((one.append gap two).append gap' three).widen before after)).laid
  · exact .unexpected site.within

/-! ### Chains of operands -/

/-- Left operands in the order of the text, the nearest one standing before `high`. -/
def Pending (source : String) (low : Nat) : Waiting → Nat → Prop
  | [], high => low ≤ high
  | (left, _) :: rest, high =>
    Pending source low rest left.span.start ∧ (Construct.expr left).Formed source ∧
      left.span.stop ≤ high

theorem joinOperands_formed {op : InfixOp} {left right : Expr}
    (first : (Construct.expr left).Formed source) (second : (Construct.expr right).Formed source)
    (gap : left.span.stop ≤ right.span.start) :
    (Construct.expr (joinOperands op left right)).Formed source := by
  have within : Span.Within source ⟨left.span.start, right.span.stop⟩ :=
    ⟨Nat.le_trans first.within.ordered (Nat.le_trans gap second.within.ordered), first.within.start,
      second.within.stop⟩
  have row : Laid source left.span.start [.expr left, .expr right] right.span.stop :=
    first.laid.append gap second.laid
  cases op with
  | binary op => exact .of_row within rfl trivial rfl row
  | logical op => exact .of_row within rfl trivial rfl row

theorem joinOperands_span (op : InfixOp) (left right : Expr) :
    (joinOperands op left right).span = ⟨left.span.start, right.span.stop⟩ := by
  cases op <;> rfl

theorem settle_formed (next : InfixOp) {waiting : Waiting} {right : Expr}
    (pending : Pending source low waiting right.span.start)
    (formed : (Construct.expr right).Formed source) :
    Pending source low (settle next waiting right).1 (settle next waiting right).2.span.start ∧
      (Construct.expr (settle next waiting right).2).Formed source ∧
      (settle next waiting right).2.span.stop = right.span.stop := by
  induction waiting generalizing right with
  | nil => exact ⟨pending, formed, rfl⟩
  | cons w rest ih =>
    unfold settle
    split
    · obtain ⟨others, left, gap⟩ := pending
      have span := joinOperands_span w.2 w.1 right
      have settled := ih (by rw [span]; exact others) (joinOperands_formed left formed gap)
      rw [span] at settled
      exact settled
    · exact ⟨pending, formed, rfl⟩

theorem settleAll_formed {waiting : Waiting} {right : Expr}
    (pending : Pending source low waiting right.span.start)
    (formed : (Construct.expr right).Formed source) :
    Laid source low [.expr (settleAll waiting right)] right.span.stop := by
  induction waiting generalizing right with
  | nil => exact formed.laid.widen pending (Nat.le_refl _)
  | cons w rest ih =>
    obtain ⟨others, left, gap⟩ := pending
    have span := joinOperands_span w.2 w.1 right
    have settled := ih (by rw [span]; exact others) (joinOperands_formed left formed gap)
    rw [span] at settled
    exact settled

/-- The operands of a chain stay in their order, however they are grouped. -/
theorem climb_laid {waiting : Waiting} {last : Expr} {rest : List (InfixOp × Expr)}
    (pending : Pending source low waiting last.span.start)
    (laid : Laid source last.span.start (.expr last :: rest.map (.expr ·.2)) high) :
    Laid source low [.expr (climb waiting last rest)] high := by
  induction rest generalizing waiting last with
  | nil =>
    obtain ⟨_, formed, after⟩ := laid_cons.1 laid
    exact (settleAll_formed pending formed).widen (Nat.le_refl _) after.le
  | cons q rest ih =>
    obtain ⟨_, formed, after⟩ := laid_cons.1 laid
    obtain ⟨gap, next, others⟩ := laid_cons.1 after
    obtain ⟨waits, left, stop⟩ := settle_formed q.1 pending formed
    have waits' : Pending source low ((_, q.1) :: _) q.2.span.start := ⟨waits, left, stop ▸ gap⟩
    exact ih waits' (laid_cons.2 ⟨Nat.le_refl _, next, others⟩)

theorem chain_placed : ∀ {parts : List Part} {low : Nat}, PartsLaid source low parts high →
    Places source (chain parts) fun rest => Laid source low (rest.map (.expr ·.2)) high
  | [], _, laid => .pure (.nil laid)
  | [_], _, laid => .pure (.nil (PartsLaid.le laid))
  | op :: operand :: rest, low, laid => by
    obtain ⟨before, operator, gap, part, after⟩ := laid
    apply Places.bind (infixOp_placed operator)
    intro op _
    apply Places.bind (expr_placed part)
    intro e here
    refine .bind (chain_placed after) fun more there => .pure ?_
    have start := Nat.le_trans before (Nat.le_trans operator.within.ordered gap)
    exact (here.append (Nat.le_refl _) there).widen start (Nat.le_refl _)

theorem binary_placed (site : Site source span parts) : Placed source span (binary span parts) := by
  unfold binary
  split
  · obtain ⟨before, part, after⟩ := site.laid
    apply Places.bind (expr_placed part)
    intro first here
    refine .bind (chain_placed after) fun rest there => .pure ?_
    obtain ⟨start, formed, stop⟩ := laid_single.1 here
    refine climb_laid (Nat.le_trans before start) ?_
    exact laid_cons.2 ⟨Nat.le_refl _, formed, there.widen stop (Nat.le_refl _)⟩
  · exact .unexpected site.within

/-! ### Prefixes and suffixes -/

theorem leading_placed (site : Site source span parts) :
    Placed source span (leading span parts) := by
  unfold leading
  split
  · exact .pure trivial
  · exact .pure trivial
  · exact .pure trivial
  · exact .pure trivial
  · exact .pure trivial
  · exact .unexpected site.within

theorem postfixOperator_placed (site : Site source span parts) :
    Placed source span (postfixOperator span parts) := by
  unfold postfixOperator
  split
  · exact .pure trivial
  · exact .unexpected site.within

theorem checkUpdatable_placed {e : Expr} (formed : (Construct.expr e).Formed source) :
    Places source (checkUpdatable e) fun _ => e.isPlace = true := by
  cases e with
  | identifier | member => exact .pure rfl
  | _ => exact .fails formed.within.inside

theorem applyLeading_placed {op : Leading} {e : Expr} (part : p.Laid source)
    (laid : Laid source p.span.stop [.expr e] high) :
    Places source (applyLeading p.span.start op e) fun e =>
      Laid source p.span.start [.expr e] high := by
  obtain ⟨gap, formed, after⟩ := laid_single.1 laid
  have within : Span.Within source ⟨p.span.start, e.span.stop⟩ :=
    ⟨Nat.le_trans part.within.ordered (Nat.le_trans gap formed.within.ordered), part.within.start,
      formed.within.stop⟩
  have row : Laid source p.span.start [.expr e] e.span.stop :=
    formed.laid.widen (Nat.le_trans part.within.ordered gap) (Nat.le_refl _)
  cases op with
  | unary op =>
    refine .pure (laid_single.2 ⟨Nat.le_refl _, ?_, after⟩)
    exact .of_row within rfl trivial rfl row
  | update op =>
    refine .map (checkUpdatable_placed formed) fun _ place =>
      laid_single.2 ⟨Nat.le_refl _, ?_, after⟩
    exact .of_row within place trivial rfl row

theorem unaryChain_placed (laid : PartsLaid source low parts high) :
    Places source (unaryChain parts) fun e => Laid source low [.expr e] high := by
  induction parts generalizing low with
  | nil => exact .fails ⟨Nat.le_refl _, Nat.zero_le _⟩
  | cons p rest ih =>
    obtain ⟨before, part, after⟩ := laid
    cases rest with
    | nil => exact (expr_placed part).weaken fun e here => here.widen before after
    | cons q rest =>
      apply Places.bind (ih after)
      intro e here
      apply Places.bind part.placed
      intro piece _
      cases piece with
      | leading op =>
        exact (applyLeading_placed part here).weaken fun e there =>
          there.widen before (Nat.le_refl _)
      | _ => exact .unexpected part.within

theorem update_placed (site : Site source span parts) : Placed source span (update span parts) := by
  unfold update
  split
  · obtain ⟨before, part, after⟩ := site.laid
    exact .bind (expr_placed part) fun e here => .pure (here.widen before after)
  · obtain ⟨before, part, gap, operator, after⟩ := site.laid
    apply Places.bind (expr_placed part)
    intro e here
    obtain ⟨_, formed, _⟩ := laid_single.1 here
    apply Places.bind operator.placed
    intro piece _
    cases piece with
    | update op =>
      refine .bind (checkUpdatable_placed formed) fun _ place => .pure ?_
      have stop := Nat.le_trans gap (Nat.le_trans operator.within.ordered after)
      exact (Formed.of_row (c := .expr (.update span op false e)) site.within place trivial rfl
        (here.widen before stop)).laid
    | _ => exact .unexpected operator.within
  · exact .unexpected site.within

/-- A member or a call reaches from what it starts with to the end of its last part. -/
theorem applySuffix_laid {e : Expr} {s : Suffix} (first : Laid source low [.expr e] mid)
    (gap : mid ≤ p.span.start) (part : p.Laid source)
    (second : Laid source p.span.start s.constructs p.span.stop) :
    Laid source low [.expr (applySuffix e p.span.stop s)] p.span.stop := by
  obtain ⟨before, formed, after⟩ := laid_single.1 first
  have row : Laid source e.span.start (.expr e :: s.constructs) p.span.stop :=
    formed.laid.append (Nat.le_trans after gap) second
  have within : Span.Within source ⟨e.span.start, p.span.stop⟩ :=
    ⟨row.le, formed.within.start, part.within.stop⟩
  cases s with
  | static | computed | call =>
    exact laid_single.2 ⟨before, .of_row within rfl trivial rfl row, Nat.le_refl _⟩

theorem applySuffixes_placed {e : Expr} (first : Laid source low [.expr e] mid)
    (laid : PartsLaid source mid parts high) :
    Places source (applySuffixes e parts) fun e => Laid source low [.expr e] high := by
  induction parts generalizing e mid with
  | nil => exact .pure (first.widen (Nat.le_refl _) laid)
  | cons p rest ih =>
    obtain ⟨gap, part, after⟩ := laid
    apply Places.bind part.placed
    intro piece here
    cases piece with
    | suffix s => exact ih (applySuffix_laid first gap part here) after
    | _ => exact .unexpected part.within

theorem leftHandSide_placed (site : Site source span parts) :
    Placed source span (leftHandSide span parts) := by
  unfold leftHandSide
  split
  · obtain ⟨before, part, after⟩ := site.laid
    apply Places.bind (expr_placed part)
    intro e here
    refine .bind (applySuffixes_placed (here.widen before (Nat.le_refl _)) after) fun e there => ?_
    exact .pure there
  · exact .unexpected site.within

theorem constructed_placed {callee : Expr} {arguments : List Item}
    (first : Laid source low [.expr callee] mid)
    (given : Laid source low (arguments.flatMap Item.constructs) high)
    (laid : PartsLaid source mid parts high) :
    Places source (constructed callee arguments parts) fun made =>
      Laid source low [.expr made.1] high ∧
        Laid source low (made.2.flatMap Item.constructs) high := by
  induction parts generalizing callee arguments mid with
  | nil => exact .pure ⟨first.widen (Nat.le_refl _) laid, given⟩
  | cons p rest ih =>
    obtain ⟨gap, part, after⟩ := laid
    apply Places.bind part.placed
    intro piece here
    cases piece with
    | suffix s =>
      cases s with
      | static | computed => exact ih (applySuffix_laid first gap part here) given after
      | call arguments =>
        have start := Nat.le_trans first.le gap
        have stop := after.le
        refine ih first (here.widen start stop) (after.from_le ?_)
        exact Nat.le_trans gap part.within.ordered
    | _ => exact .unexpected part.within

theorem newExpression_placed (site : Site source span parts) :
    Placed source span (newExpression span parts) := by
  unfold newExpression
  split
  · obtain ⟨before, word, gap, part, after⟩ := site.laid
    apply Places.bind (expr_placed part)
    intro e here
    have start := Nat.le_trans before (Nat.le_trans word.within.ordered gap)
    have none : Laid source span.start (([] : List Item).flatMap Item.constructs) span.stop :=
      .nil site.within.ordered
    refine .bind (constructed_placed (here.widen start (Nat.le_refl _)) none after) ?_
    intro made there
    refine .pure
      (Formed.of_rows (c := .expr (.new span made.1 made.2)) site.within rfl trivial ?_).laid
    exact List.forall_mem_cons.2 ⟨there.1, List.forall_mem_singleton.2 there.2⟩
  · exact .unexpected site.within

theorem staticMember_placed (site : Site source span parts) :
    Placed source span (staticMember span parts) := by
  unfold staticMember
  split
  · obtain ⟨before, part, after⟩ := site.laid
    exact .bind (name_placed part) fun n here => .pure (here.widen before after)
  · exact .unexpected site.within

theorem computedMember_placed (site : Site source span parts) :
    Placed source span (computedMember span parts) := by
  unfold computedMember
  split
  · obtain ⟨before, part, after⟩ := site.laid
    exact .bind (expr_placed part) fun e here => .pure (here.widen before after)
  · exact .unexpected site.within

theorem item_placed (part : p.Laid source) :
    Places source (item p) fun i => Laid source p.span.start i.constructs p.span.stop := by
  have single : Places source (do return .one (← p.expr)) fun i : Item =>
      Laid source p.span.start i.constructs p.span.stop :=
    .bind (expr_placed part) fun e here => .pure here
  apply Places.bind part.placed
  intro piece here
  cases piece with
  | spread e => exact .pure here
  | _ => exact single

theorem arguments_placed (site : Site source span parts) :
    Placed source span (arguments parts) :=
  .bind (each_placed (fun _ part => item_placed part) site.laid) fun _ there => .pure there

theorem spread_placed (site : Site source span parts) : Placed source span (spread span parts) := by
  unfold spread
  split
  · obtain ⟨before, part, after⟩ := site.laid
    exact .bind (expr_placed part) fun e here => .pure (here.widen before after)
  · exact .unexpected site.within

theorem wrapped_placed (site : Site source span parts) :
    Placed source span (wrapped span parts) := by
  unfold wrapped
  split
  · obtain ⟨before, part, after⟩ := site.laid
    exact .bind (expr_placed part) fun e here => .pure (here.widen before after)
  · exact .unexpected site.within

/-! ### Collections -/

theorem arraySlot_placed (site : Site source span parts) :
    Placed source span (arraySlot span parts) := by
  unfold arraySlot
  split
  · exact .pure (.nil site.within.ordered)
  · obtain ⟨before, part, after⟩ := site.laid
    exact .bind (item_placed part) fun i here => .pure (here.widen before after)
  · exact .unexpected site.within

theorem slotItem_placed (part : p.Laid source) :
    Places source (slotItem p) fun i => Laid source p.span.start i.constructs p.span.stop := by
  apply Places.bind part.placed
  intro piece here
  cases piece with
  | slot i => exact .pure here
  | _ => exact .unexpected part.within

theorem constructs_dropLastHole (items : List Item) :
    (dropLastHole items).flatMap Item.constructs = items.flatMap Item.constructs := by
  unfold dropLastHole
  split
  · rename_i last
    obtain ⟨before, rfl⟩ := List.getLast?_eq_some_iff.1 last
    simp [Item.constructs]
  · rfl

theorem arrayLiteral_placed (site : Site source span parts) :
    Placed source span (arrayLiteral span parts) := by
  refine .bind (each_placed (fun _ part => slotItem_placed part) site.laid)
    fun items there => .pure ?_
  rw [← constructs_dropLastHole] at there
  exact (Formed.of_row (c := .expr (.array span (dropLastHole items))) site.within rfl trivial rfl
    there).laid

theorem objectMember_placed (part : p.Laid source) :
    Places source (objectMember p) fun m =>
      Laid source p.span.start m.keys p.span.stop ∧
        Laid source p.span.start [m.value] p.span.stop := by
  apply Places.bind part.placed
  intro piece here
  cases piece with
  | member m => exact .pure here
  | spread e => exact .pure ⟨.nil part.within.ordered, here⟩
  | _ => exact .unexpected part.within

theorem objectLiteral_placed (site : Site source span parts) :
    Placed source span (objectLiteral span parts) := by
  have keys := each_placed (fun _ part => (objectMember_placed part).weaken fun _ here => here.1)
    site.laid
  have values := each_single (fun _ part => (objectMember_placed part).weaken fun _ here => here.2)
    site.laid
  refine .bind (keys.and values) fun ms there => .pure ?_
  refine (Formed.of_rows (c := .expr (.object span ms)) site.within rfl trivial ?_).laid
  exact List.forall_mem_cons.2 ⟨there.1, List.forall_mem_singleton.2 there.2⟩

theorem propertyAssignment_placed (site : Site source span parts) :
    Placed source span (propertyAssignment span parts) := by
  unfold propertyAssignment
  split
  · obtain ⟨before, first, gap, second, after⟩ := site.laid
    apply Places.bind (key_placed first)
    intro key one
    refine .bind (expr_placed second) fun value two => .pure ⟨?_, ?_⟩
    · exact one.widen before (Nat.le_trans gap (Nat.le_trans second.within.ordered after))
    · exact two.widen (Nat.le_trans before (Nat.le_trans first.within.ordered gap)) after
  · exact .unexpected site.within

theorem method_placed (site : Site source span parts) : Placed source span (method span parts) := by
  unfold method
  split
  · obtain ⟨before, first, gap, second, gap', third, after⟩ := site.laid
    apply Places.bind (key_placed first)
    intro key one
    apply Places.bind (parameters_placed second)
    intro params two
    refine .bind (block_placed third) fun body three => .pure ⟨?_, ?_⟩
    · exact one.widen before (Nat.le_trans gap (Nat.le_trans (two.1.append gap' three).le after))
    · have row := (two.1.append gap' three).widen
        (Nat.le_trans before (Nat.le_trans first.within.ordered gap)) after
      have fn : (Construct.function ⟨.expression, none, params, .block body, span⟩).Formed source :=
        .of_row site.within rfl two.2 rfl row
      exact (Formed.of_row (c := .expr (.function span _)) site.within rfl trivial rfl fn.laid).laid
  · exact .unexpected site.within

theorem shorthand_placed (site : Site source span parts) :
    Placed source span (shorthand span parts) := by
  unfold shorthand
  split
  · obtain ⟨before, part, after⟩ := site.laid
    refine .bind (name_placed part) fun name here => .pure ⟨.nil site.within.ordered, ?_⟩
    exact (Formed.of_row (c := .expr (.identifier span name)) site.within rfl trivial rfl
      (here.widen before after)).laid
  · exact .unexpected site.within

theorem propertyKey_placed (site : Site source span parts) :
    Placed source span (propertyKey span parts) := by
  unfold propertyKey
  split
  · obtain ⟨before, part, after⟩ := site.laid
    apply Places.bind part.placed
    intro piece here
    cases piece with
    | expr e => exact .pure (here.widen before after)
    | string | number | token => exact .pure (.nil site.within.ordered)
    | _ => exact .unexpected site.within
  · exact .unexpected site.within

end Scriptlet.Tree
