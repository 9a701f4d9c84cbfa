import Scriptlet.Proofs.Tree.Construct
import Scriptlet.Proofs.Tree.Rest
import Scriptlet.Tree.Escape

/-!
The pieces of a program tree at their places in the text.

A part is laid out if whatever it stands for is formed and fills no more than the span of the part,
and if the error it may keep instead names a place in the text.
-/

namespace Scriptlet

open Grammar (Rule bytes bytes_append bytes_cons bytes_toList)
open Construct (Formed Laid laid_nil laid_cons laid_single)

/-- A span between the ends of a text. -/
def Span.Inside (source : String) (s : Span) : Prop :=
  s.start ≤ s.stop ∧ s.stop ≤ source.utf8ByteSize

theorem Span.Within.inside {source : String} {s : Span} (within : s.Within source) :
    s.Inside source :=
  ⟨within.ordered, within.stop_le⟩

namespace Tree

/-- What holds of a value if it can be built, while an error names a place in the text. -/
structure Places {α : Type} (source : String) (m : Build α) (Q : α → Prop) : Prop where
  ok : ∀ a, m = .ok a → Q a
  error : ∀ e, m = .error e → e.span.Inside source

variable {source : String}

namespace Places

variable {α β : Type} {m : Build α} {Q : α → Prop} {span : Span}

theorem pure {a : α} (here : Q a) : Places source (Pure.pure a : Build α) Q := by
  constructor
  · intro b done
    cases done
    exact here
  · intro e failed
    cases failed

theorem fails {cause : ParseCause} (inside : span.Inside source) :
    Places source (.error ⟨cause, span⟩ : Build α) Q := by
  constructor
  · intro a done
    cases done
  · intro e failed
    cases failed
    exact inside

theorem unexpected {what : String} (within : span.Within source) :
    Places source (Tree.unexpected span what : Build α) Q :=
  fails within.inside

theorem weaken {P : α → Prop} (places : Places source m P) (weaker : ∀ a, P a → Q a) :
    Places source m Q :=
  ⟨fun a done => weaker a (places.ok a done), places.error⟩

theorem and {P : α → Prop} (first : Places source m P) (second : Places source m Q) :
    Places source m fun a => P a ∧ Q a :=
  ⟨fun a done => ⟨first.ok a done, second.ok a done⟩, first.error⟩

/-- What is told of a value may use that it was built. -/
theorem keep (places : Places source m Q) : Places source m fun a => m = .ok a ∧ Q a :=
  ⟨fun a done => ⟨done, places.ok a done⟩, places.error⟩

theorem bind {P : α → Prop} {Q : β → Prop} {f : α → Build β} (first : Places source m P)
    (then_ : ∀ a, P a → Places source (f a) Q) : Places source (m >>= f) Q := by
  cases made : m with
  | error e =>
    constructor
    · intro b done
      cases done
    · intro e' failed
      cases failed
      exact first.error e made
  | ok a =>
    have next := then_ a (first.ok a made)
    exact ⟨fun b done => next.ok b done, fun e failed => next.error e failed⟩

theorem map {P : α → Prop} {Q : β → Prop} {f : α → β} (first : Places source m P)
    (then_ : ∀ a, P a → Q (f a)) : Places source (m.map f) Q := by
  cases made : m with
  | error e =>
    constructor
    · intro b done
      cases done
    · intro e' failed
      cases failed
      exact first.error e made
  | ok a =>
    constructor
    · intro b done
      cases done
      exact then_ a (first.ok a made)
    · intro e failed
      cases failed

end Places

/-! ### Pieces and parts -/

def Suffix.constructs : Suffix → List Construct
  | .static name => [.name name]
  | .computed key => [.expr key]
  | .call arguments => arguments.flatMap Item.constructs

/-- What a piece at a place in the text consists of, in the order of the text. -/
def Piece.Laid (source : String) (span : Span) : Piece → Prop
  | .token text => span.start + text.utf8ByteSize ≤ span.stop
  | .number _ | .string _ | .leading _ | .update _ | .assignOp _ | .declKind _ => True
  | .expr e | .spread e | .forTest e | .forUpdate e =>
    Construct.Laid source span.start [.expr e] span.stop
  | .suffix s => Construct.Laid source span.start s.constructs span.stop
  | .slot i => Construct.Laid source span.start i.constructs span.stop
  | .key k => Construct.Laid source span.start k.constructs span.stop
  | .member m =>
    Construct.Laid source span.start m.keys span.stop ∧
      Construct.Laid source span.start [m.value] span.stop
  | .pattern p => Construct.Laid source span.start [.pattern true p] span.stop
  | .bindingSlot p => Construct.Laid source span.start (p.toList.map (.pattern true)) span.stop
  | .bindingProperty p =>
    Construct.Laid source span.start p.key.constructs span.stop ∧
      Construct.Laid source span.start [.pattern true p.value] span.stop
  | .parameters ps =>
    Construct.Laid source span.start (ps.map (.pattern true)) span.stop ∧
      ps.Pairwise fun p _ => isRest p = false
  | .functionBody b => Construct.Laid source span.start b.constructs span.stop
  | .block b | .finalizer b => Construct.Laid source span.start [.block b] span.stop
  | .stmt s => Construct.Laid source span.start [.stmt s] span.stop
  | .declarator d => Construct.Laid source span.start [.declarator d] span.stop
  | .declaration d => Construct.Laid source span.start [.declaration d] span.stop
  | .forInit init => Construct.Laid source span.start init.constructs span.stop
  | .eachTarget declared target =>
    Construct.Laid source span.start [.pattern declared.isSome target] span.stop
  | .handler h => Construct.Laid source span.start h.constructs span.stop
  | .case c => Construct.Laid source span.start [.case c] span.stop
  | .program body => Construct.Laid source span.start (body.map .stmt) span.stop

/-- The clauses of a try statement are told apart by their rules. -/
def Piece.isOf (rule : Rule) (piece : Piece) : Bool :=
  match rule, piece with
  | .catchClause, .finalizer _ => false
  | .finallyClause, .handler _ => false
  | _, _ => true

def Placed (source : String) (span : Span) (m : Build Piece) : Prop :=
  Places source m (Piece.Laid source span)

/-- A part with its piece in place. -/
structure Part.Laid (source : String) (p : Part) : Prop where
  within : p.span.Within source
  placed : Placed source p.span p.piece
  suits : ∀ piece, p.piece = .ok piece → piece.isOf p.rule = true

theorem Part.Laid.clause {p : Part} (laid : p.Laid source) :
    Places source p.piece fun piece => piece.Laid source p.span ∧ piece.isOf p.rule = true :=
  ⟨fun piece made => ⟨laid.placed.ok piece made, laid.suits piece made⟩, laid.placed.error⟩

/-- Parts that follow each other between two places. -/
def PartsLaid (source : String) : Nat → List Part → Nat → Prop
  | low, [], high => low ≤ high
  | low, p :: rest, high => low ≤ p.span.start ∧ p.Laid source ∧
    PartsLaid source p.span.stop rest high

/-- The parts of a node in the span of the node. -/
structure Site (source : String) (span : Span) (parts : List Part) : Prop where
  within : span.Within source
  laid : PartsLaid source span.start parts span.stop

variable {p : Part} {parts : List Part} {span : Span} {low high : Nat}

theorem PartsLaid.from_le {low' : Nat} (before : low' ≤ low)
    (laid : PartsLaid source low parts high) :
    PartsLaid source low' parts high := by
  cases parts with
  | nil => exact Nat.le_trans before laid
  | cons p rest => exact ⟨Nat.le_trans before laid.1, laid.2⟩

theorem PartsLaid.le (laid : PartsLaid source low parts high) : low ≤ high := by
  induction parts generalizing low with
  | nil => exact laid
  | cons p rest ih =>
    obtain ⟨before, part, after⟩ := laid
    exact Nat.le_trans before (Nat.le_trans part.within.ordered (ih after))

/-- Leaving out the first parts. -/
theorem PartsLaid.drop (n : Nat) (laid : PartsLaid source low parts high) :
    PartsLaid source low (parts.drop n) high := by
  induction parts generalizing low n with
  | nil => simpa using laid
  | cons p rest ih =>
    cases n with
    | zero => exact laid
    | succ n =>
      obtain ⟨before, part, after⟩ := laid
      exact (ih n after).from_le (Nat.le_trans before part.within.ordered)

theorem PartsLaid.filter (keep : Part → Bool) (laid : PartsLaid source low parts high) :
    PartsLaid source low (parts.filter keep) high := by
  induction parts generalizing low with
  | nil => exact laid
  | cons p rest ih =>
    obtain ⟨before, part, after⟩ := laid
    rw [List.filter_cons]
    split
    · exact ⟨before, part, ih after⟩
    · exact (ih after).from_le (Nat.le_trans before part.within.ordered)

/-! ### Lists of parts -/

/-- What is read from parts that follow each other follows each other. -/
theorem each_placed {α : Type} {f : Part → Build α} {row : α → List Construct}
    (reads : ∀ p : Part, p.Laid source →
      Places source (f p) fun a => Laid source p.span.start (row a) p.span.stop)
    (laid : PartsLaid source low parts high) :
    Places source (each f parts) fun as => Laid source low (as.flatMap row) high := by
  induction parts generalizing low with
  | nil => exact .pure (.nil laid)
  | cons p rest ih =>
    obtain ⟨before, part, after⟩ := laid
    apply Places.bind (reads p part)
    intro a here
    refine .bind (ih after) fun as there => .pure ?_
    rw [List.flatMap_cons]
    exact (here.append (Nat.le_refl _) there).widen before (Nat.le_refl _)

theorem each_single {α : Type} {f : Part → Build α} {single : α → Construct}
    (reads : ∀ p : Part, p.Laid source →
      Places source (f p) fun a => Laid source p.span.start [single a] p.span.stop)
    (laid : PartsLaid source low parts high) :
    Places source (each f parts) fun as => Laid source low (as.map single) high := by
  refine (each_placed reads laid).weaken fun as there => ?_
  rw [List.map_eq_flatMap]
  exact there

theorem each_all {α : Type} {f : Part → Build α} {Q : α → Prop}
    (reads : ∀ p : Part, p.Laid source → Places source (f p) Q)
    (laid : PartsLaid source low parts high) :
    Places source (each f parts) fun as => ∀ a ∈ as, Q a := by
  induction parts generalizing low with
  | nil => exact .pure (by simp)
  | cons p rest ih =>
    apply Places.bind (reads p laid.2.1)
    intro a here
    refine .bind (ih laid.2.2) fun as there => .pure ?_
    exact List.forall_mem_cons.2 ⟨here, there⟩

/-! ### Reading parts -/

theorem identifier_formed {name : Name} (within : span.Within source) (same : name.span = span) :
    (Construct.expr (.identifier span name)).Formed source := by
  subst same
  exact .of_row within rfl trivial rfl (Formed.name within).laid

theorem patternIdentifier_formed {name : Name} {declares : Bool} (within : span.Within source)
    (same : name.span = span) :
    (Construct.pattern declares (.identifier span name)).Formed source := by
  subst same
  refine .of_row within ?_ ?_ rfl (Formed.name within).laid
  · cases declares <;> rfl
  · cases declares <;> exact trivial

theorem name_placed (laid : p.Laid source) :
    Places source p.name fun n => Laid source p.span.start [.name n] p.span.stop := by
  apply Places.bind laid.placed
  intro piece here
  cases piece with
  | token text => exact .pure (Formed.name (n := ⟨text, p.span⟩) laid.within).laid
  | _ => exact .unexpected laid.within

theorem expr_placed (laid : p.Laid source) :
    Places source p.expr fun e => Laid source p.span.start [.expr e] p.span.stop := by
  apply Places.bind laid.placed
  intro piece here
  cases piece with
  | expr e => exact .pure here
  | token text =>
    simp only
    split
    · exact .pure (identifier_formed laid.within rfl).laid
    · exact .unexpected laid.within
  | number x =>
    exact .pure (Formed.leaf (c := .expr (.number p.span x)) laid.within rfl trivial rfl).laid
  | string s =>
    exact .pure (Formed.leaf (c := .expr (.string p.span s)) laid.within rfl trivial rfl).laid
  | _ => exact .unexpected laid.within

theorem pattern_placed (laid : p.Laid source) :
    Places source p.pattern fun q => Laid source p.span.start [.pattern true q] p.span.stop := by
  apply Places.bind laid.placed
  intro piece here
  cases piece with
  | pattern q => exact .pure here
  | token text =>
    simp only
    split
    · exact .pure (patternIdentifier_formed laid.within rfl).laid
    · exact .unexpected laid.within
  | _ => exact .unexpected laid.within

theorem block_placed (laid : p.Laid source) :
    Places source p.block fun b => Laid source p.span.start [.block b] p.span.stop := by
  apply Places.bind laid.placed
  intro piece here
  cases piece with
  | block b => exact .pure here
  | _ => exact .unexpected laid.within

theorem stmt_placed (laid : p.Laid source) :
    Places source p.stmt fun s => Laid source p.span.start [.stmt s] p.span.stop := by
  apply Places.bind laid.placed
  intro piece here
  cases piece with
  | stmt s => exact .pure here
  | block b =>
    exact .pure (Formed.of_row (c := .stmt (.block p.span b)) laid.within rfl trivial rfl here).laid
  | _ => exact .unexpected laid.within

theorem parameters_placed (laid : p.Laid source) :
    Places source p.parameters fun ps =>
      Laid source p.span.start (ps.map (.pattern true)) p.span.stop ∧
        ps.Pairwise fun p _ => isRest p = false := by
  apply Places.bind laid.placed
  intro piece here
  cases piece with
  | parameters ps => exact .pure here
  | _ => exact .unexpected laid.within

theorem key_placed (laid : p.Laid source) :
    Places source p.key fun k => Laid source p.span.start k.constructs p.span.stop := by
  apply Places.bind laid.placed
  intro piece here
  cases piece with
  | key k => exact .pure here
  | _ => exact .unexpected laid.within

theorem infixOp_placed (laid : p.Laid source) : Places source p.infixOp fun _ => True := by
  unfold Part.infixOp
  split
  · exact .pure trivial
  · exact .pure trivial
  · exact .pure trivial
  · exact .unexpected laid.within

/-! ### Targets -/

/-- A pattern in the place of an expression. -/
structure Takes (source : String) (e : Expr) (p : Pattern) : Prop where
  span : (Construct.pattern false p).span = (Construct.expr e).span
  formed : (Construct.pattern false p).Formed source
  through : p.isLetThrough = true

theorem Takes.laid {e : Expr} {p : Pattern} (takes : Takes source e p) :
    Laid source e.span.start [.pattern false p] e.span.stop := by
  have filled := takes.formed.laid
  rw [takes.span] at filled
  exact filled

theorem simpleTarget_placed {e : Expr} (formed : (Construct.expr e).Formed source) :
    Places source (simpleTarget e) fun p => p.isPlace = true ∧ Takes source e p := by
  cases e with
  | identifier span name =>
    exact .pure
      ⟨rfl, rfl,
        .of_row formed.within rfl trivial rfl (formed.rows (List.mem_singleton_self _)), rfl⟩
  | member span of key =>
    exact .pure
      ⟨rfl, rfl,
        .of_row formed.within rfl trivial rfl (formed.rows (List.mem_singleton_self _)), rfl⟩
  | _ => exact .fails formed.within.inside

mutual

theorem toPattern_placed {e : Expr} (formed : (Construct.expr e).Formed source) :
    Places source (toPattern e) (Takes source e) := by
  match e with
  | .identifier span name =>
    rw [toPattern]
    exact .pure
      ⟨rfl, .of_row formed.within rfl trivial rfl (formed.rows (List.mem_singleton_self _)), rfl⟩
  | .member span of key =>
    rw [toPattern]
    exact .pure
      ⟨rfl, .of_row formed.within rfl trivial rfl (formed.rows (List.mem_singleton_self _)), rfl⟩
  | .array span items =>
    rw [toPattern]
    have items_placed := itemPatterns_placed (formed.rows (List.mem_singleton_self _))
    refine .map items_placed.keep fun ps there => ⟨rfl, ?_, rfl⟩
    exact .of_row formed.within rfl (itemPatterns_rests there.1) rfl there.2
  | .object span members =>
    rw [toPattern]
    have keys : Laid source span.start (members.flatMap Member.keys) span.stop :=
      formed.rows (List.mem_cons_self ..)
    have values : Laid source span.start (members.map Member.value) span.stop :=
      formed.rows (List.mem_cons_of_mem _ (List.mem_singleton_self _))
    refine .map (memberPatterns_placed keys values) fun ps there => ⟨rfl, ?_, rfl⟩
    refine .of_rows formed.within rfl trivial (List.forall_mem_cons.2 ⟨there.1, ?_⟩)
    exact List.forall_mem_singleton.2 there.2
  | .assign span .plain target value =>
    rw [toPattern]
    exact .pure
      ⟨rfl, .of_row formed.within rfl trivial rfl (formed.rows (List.mem_singleton_self _)), rfl⟩
  | .assign _ (.compound _) _ _ | .assign _ (.logical _) _ _ | .number .. | .string .. | .boolean ..
  | .null .. | .template .. | .this .. | .function .. | .unary .. | .update .. | .binary ..
  | .logical .. | .conditional .. | .call .. | .new .. | .sequence .. =>
    simp only [toPattern]
    exact .fails formed.within.inside

theorem itemPatterns_placed {items : List Item} {low high : Nat}
    (laid : Laid source low (items.flatMap Item.constructs) high) :
    Places source (itemPatterns items) fun ps =>
      Laid source low ((ps.filterMap id).map (.pattern false)) high := by
  match items with
  | [] =>
    rw [itemPatterns]
    exact .pure laid
  | .hole :: rest =>
    rw [itemPatterns]
    exact .bind (itemPatterns_placed laid) fun ps there => .pure there
  | .one e :: rest =>
    rw [itemPatterns]
    obtain ⟨before, formed, after⟩ := laid_cons.1 laid
    apply Places.bind (toPattern_placed formed)
    intro p here
    refine .bind (itemPatterns_placed after) fun ps there => .pure (laid_cons.2 ?_)
    rw [here.span]
    exact ⟨before, here.formed, there⟩
  | .spread e :: rest =>
    rw [itemPatterns]
    obtain ⟨before, formed, after⟩ := laid_cons.1 laid
    split
    · refine .bind (toPattern_placed formed) fun p here =>
        .pure (laid_single.2 ⟨before, ?_, after.le⟩)
      exact .of_row formed.within rfl trivial rfl here.laid
    · exact .fails formed.within.inside

theorem memberPatterns_placed {members : List Member} {low low' high : Nat}
    (keys : Laid source low (members.flatMap Member.keys) high)
    (values : Laid source low' (members.map Member.value) high) :
    Places source (memberPatterns members) fun ps =>
      Laid source low (ps.1.flatMap fun p => p.key.constructs) high ∧
        Laid source low' ((ps.1.map (·.value) ++ ps.2.toList).map (.pattern false)) high := by
  match members with
  | [] =>
    rw [memberPatterns]
    exact .pure ⟨keys, values⟩
  | .property key value :: rest =>
    rw [memberPatterns]
    obtain ⟨before, formed, after⟩ := laid_cons.1 values
    apply Places.bind (toPattern_placed formed)
    intro p here
    obtain ⟨mid, first, others⟩ := keys.split
    refine .bind (memberPatterns_placed others after) fun ps there => .pure ⟨?_, laid_cons.2 ?_⟩
    · exact first.append (Nat.le_refl _) there.1
    · rw [here.span]
      exact ⟨before, here.formed, there.2⟩
  | .spread e :: rest =>
    rw [memberPatterns]
    obtain ⟨before, formed, after⟩ := laid_cons.1 values
    split
    · refine .bind (simpleTarget_placed formed) fun p here => .pure ⟨?_, laid_single.2 ?_⟩
      · exact .nil keys.le
      · rw [here.2.span]
        exact ⟨before, here.2.formed, after.le⟩
    · exact .fails formed.within.inside

end

end Tree

end Scriptlet
