import Mathlib.Data.List.Forall2
import Scriptlet.Proofs.Cover.Bare
import Scriptlet.Proofs.Layout.Accepted

/-!
Literals that are read as patterns.

A pattern covers an expression if the expression, read as a pattern, is the same one at other
places. Patterns of covering parts cover the literals of these parts: one lemma for each form of a
pattern.
-/

namespace Scriptlet

open Grammar (Rule)

/-- Read as a pattern, the expression is this one, apart from places. -/
def Covers (p : Pattern) (e : Expr) : Prop :=
  ∀ q, Tree.toPattern e = .ok q → p.bare = q.bare

inductive SlotCovers : Option Pattern → Item → Prop
  | hole : SlotCovers none .hole
  | one {p : Pattern} {e : Expr} : Covers p e → SlotCovers (some p) (.one e)
  | rest {p : Pattern} {e : Expr} {span : Span} :
    Covers p e → SlotCovers (some (.rest span p)) (.spread e)

/-- What a member of an object pattern stands for covers a member of an object literal. -/
inductive MemberCovers : Tree.Piece → Member → Prop
  | property {p : Pattern} {e : Expr} {key : PropertyKey} :
      Covers p e → MemberCovers (.bindingProperty ⟨key, p⟩) (.property key e)
  | name {text : String} {s s' t t' : Span} :
      MemberCovers (.pattern (.identifier s ⟨text, t⟩))
        (.property (.static text) (.identifier s' ⟨text, t'⟩))
  | rest {p : Pattern} {e : Expr} {span : Span} :
    Covers p e → MemberCovers (.pattern (.rest span p)) (.spread e)

namespace Tree

/-! ### Array patterns -/

theorem itemPatterns_bare {ps qs : List (Option Pattern)} {items : List Item}
    (covers : List.Forall₂ SlotCovers ps items) (made : itemPatterns items = .ok qs) :
    bareElements ps = bareElements qs := by
  induction covers generalizing qs with
  | nil =>
    rw [itemPatterns] at made
    cases made
    rfl
  | @cons p item ps items first others ih =>
    cases first with
    | hole =>
      rw [itemPatterns] at made
      obtain ⟨rs, rest, done⟩ := bind_ok.1 made
      cases done
      rw [bareElements, bareElements, ih rest]
    | one covers =>
      rw [itemPatterns] at made
      obtain ⟨r, here, made⟩ := bind_ok.1 made
      obtain ⟨rs, rest, done⟩ := bind_ok.1 made
      cases done
      rw [bareElements, bareElements, ih rest, barePattern?, barePattern?, covers r here]
    | rest covers =>
      rw [itemPatterns] at made
      split at made
      next last =>
        obtain ⟨r, here, done⟩ := bind_ok.1 made
        cases done
        cases List.isEmpty_iff.1 last
        cases others
        simp only [bareElements, barePattern?, Pattern.bare, covers r here]
      next => cases made

theorem dropLast_covers {ps : List (Option Pattern)} {items : List Item}
    (covers : List.Forall₂ SlotCovers ps items) :
    List.Forall₂ SlotCovers (dropLastElision ps) (dropLastHole items) := by
  have head {p : Option Pattern} {ps : List (Option Pattern)} (some : ps ≠ []) :
      dropLastElision (p :: ps) = p :: dropLastElision ps := by
    obtain ⟨q, ps, rfl⟩ := List.exists_cons_of_ne_nil some
    rw [dropLastElision, dropLastElision, List.getLast?_cons_cons, List.dropLast_cons_cons]
    split <;> rfl
  have head' {i : Item} {items : List Item} (some : items ≠ []) :
      dropLastHole (i :: items) = i :: dropLastHole items := by
    obtain ⟨j, items, rfl⟩ := List.exists_cons_of_ne_nil some
    rw [dropLastHole, dropLastHole, List.getLast?_cons_cons, List.dropLast_cons_cons]
    split <;> rfl
  induction covers with
  | nil => exact .nil
  | cons first others ih =>
    cases others with
    | nil =>
      cases first with
      | hole => exact .nil
      | one covers => exact .cons (.one covers) .nil
      | rest covers => exact .cons (.rest covers) .nil
    | cons second others =>
      rw [head (List.cons_ne_nil _ _), head' (List.cons_ne_nil _ _)]
      exact .cons first ih

theorem array_covers {ps : List (Option Pattern)} {items : List Item} {span span' : Span}
    (covers : List.Forall₂ SlotCovers ps items) :
    Covers (.array span (dropLastElision ps)) (.array span' (dropLastHole items)) := by
  intro q made
  rw [toPattern] at made
  obtain ⟨qs, elements, rfl⟩ := map_ok.1 made
  rw [Pattern.bare, Pattern.bare, itemPatterns_bare (dropLast_covers covers) elements]

/-! ### Object patterns -/

theorem toPattern_of_simple {e : Expr} {q : Pattern} (made : simpleTarget e = .ok q) :
    toPattern e = .ok q := by
  unfold simpleTarget at made
  split at made
  · cases made
    rw [toPattern]
  · cases made
    rw [toPattern]
  · cases made

theorem pattern_of_piece {p : Part} {q : Pattern} (stands : p.piece = .ok (.pattern q)) :
    p.pattern = .ok q := by
  unfold Part.pattern
  rw [stands]
  rfl

theorem members_bare {parts : List Part} {members : List Member} {ps qs : List PatternProperty}
    {r r' : Option Pattern}
    (covers : List.Forall₂ (fun p m => ∀ x, p.piece = .ok x → MemberCovers x m) parts members)
    (made : bindingMembers parts = .ok (ps, r)) (made' : memberPatterns members = .ok (qs, r')) :
    bareProperties ps = bareProperties qs ∧ barePattern? r = barePattern? r' := by
  induction covers generalizing ps qs r r' with
  | nil =>
    rw [memberPatterns] at made'
    cases made
    cases made'
    exact ⟨rfl, rfl⟩
  | @cons p m parts members first others ih =>
    rw [bindingMembers] at made
    obtain ⟨x, stands, made⟩ := bind_ok.1 made
    cases first x stands with
    | property covers =>
      obtain ⟨⟨ps, r⟩, rest, done⟩ := bind_ok.1 made
      cases done
      rw [memberPatterns] at made'
      obtain ⟨q, here, made'⟩ := bind_ok.1 made'
      obtain ⟨⟨qs, r'⟩, rest', done'⟩ := bind_ok.1 made'
      cases done'
      obtain ⟨properties, last⟩ := ih rest rest'
      simp only [bareProperties, PatternProperty.bare, properties, covers q here, last, and_self]
    | name =>
      obtain ⟨q, pattern, made⟩ := bind_ok.1 made
      cases (pattern_of_piece stands).symm.trans pattern
      obtain ⟨property, short, made⟩ := bind_ok.1 made
      cases short
      obtain ⟨⟨ps, r⟩, rest, done⟩ := bind_ok.1 made
      cases done
      rw [memberPatterns] at made'
      obtain ⟨q, here, made'⟩ := bind_ok.1 made'
      obtain ⟨⟨qs, r'⟩, rest', done'⟩ := bind_ok.1 made'
      cases done'
      rw [toPattern] at here
      cases here
      obtain ⟨properties, last⟩ := ih rest rest'
      simp only [bareProperties, PatternProperty.bare, Pattern.bare, Name.bare, properties, last,
        and_self]
    | @rest target _ _ covers =>
      obtain ⟨q, pattern, made⟩ := bind_ok.1 made
      cases (pattern_of_piece stands).symm.trans pattern
      rw [memberPatterns] at made'
      split at made'
      next last =>
        obtain ⟨q, here, done'⟩ := bind_ok.1 made'
        cases done'
        cases List.isEmpty_iff.1 last
        cases others
        cases target with
        | identifier s name =>
          cases made
          exact ⟨rfl, congrArg some (covers q (toPattern_of_simple here))⟩
        | _ => cases made
      next => cases made'

theorem object_covers {parts : List Part} {members : List Member} {ps : List PatternProperty}
    {r : Option Pattern} {span span' : Span}
    (covers : List.Forall₂ (fun p m => ∀ x, p.piece = .ok x → MemberCovers x m) parts members)
    (made : bindingMembers parts = .ok (ps, r)) :
    Covers (.object span ps r) (.object span' members) := by
  intro q made'
  rw [toPattern] at made'
  obtain ⟨⟨qs, r'⟩, read, rfl⟩ := map_ok.1 made'
  obtain ⟨properties, last⟩ := members_bare covers made read
  simp only [Pattern.bare, properties, last]

/-! ### Nodes -/

/-- The pattern that one node stands for covers the expression that the other one stands for. -/
def Agree (n m : Grammar.Node Rule) : Prop :=
  ∀ p e, (build n).pattern = .ok p → (build m).expr = .ok e → Covers p e

def SlotAgree (n m : Grammar.Node Rule) : Prop :=
  ∀ p i, slotPattern (build n) = .ok p → slotItem (build m) = .ok i → SlotCovers p i

def MemberAgree (n m : Grammar.Node Rule) : Prop :=
  ∀ x y, (build n).piece = .ok x → objectMember (build m) = .ok y → MemberCovers x y

section Nodes

variable {n m k v w op : Grammar.Node Rule} {ns ms : List (Grammar.Node Rule)} {span span' : Span}
  {text text' : String}

theorem piece_build (r : Rule) (span : Span) (text : String) (ns : List (Grammar.Node Rule)) :
    (build ⟨r, span, text, ns⟩).piece = piece r span text (ns.map build) := by
  rw [build_eq]

theorem each_agree {α β : Type} {R : α → β → Prop} {f : Part → Build α} {f' : Part → Build β}
    {as : List α}
    {bs : List β}
    (agree : List.Forall₂
      (fun n m => ∀ a b, f (build n) = .ok a → f' (build m) = .ok b → R a b) ns ms)
    (made : each f (ns.map build) = .ok as) (made' : each f' (ms.map build) = .ok bs) :
    List.Forall₂ R as bs := by
  induction agree generalizing as bs with
  | nil =>
    cases made
    cases made'
    exact .nil
  | cons first _ ih =>
    obtain ⟨a, here, made⟩ := bind_ok.1 made
    obtain ⟨as, rest, done⟩ := bind_ok.1 made
    cases done
    obtain ⟨b, here', made'⟩ := bind_ok.1 made'
    obtain ⟨bs, rest', done'⟩ := bind_ok.1 made'
    cases done'
    exact .cons (first a b here here') (ih rest rest')

theorem members_agree {members : List Member} (agree : List.Forall₂ MemberAgree ns ms)
    (made : each objectMember (ms.map build) = .ok members) :
    List.Forall₂ (fun p m => ∀ x, p.piece = .ok x → MemberCovers x m) (ns.map build) members := by
  induction agree generalizing members with
  | nil =>
    cases made
    exact .nil
  | cons first _ ih =>
    obtain ⟨y, here, made⟩ := bind_ok.1 made
    obtain ⟨others, rest, done⟩ := bind_ok.1 made
    cases done
    exact .cons (fun x stands => first x y stands here) (ih rest)

theorem agree_identifier : Agree ⟨.identifier, span, text, ns⟩ ⟨.identifier, span', text, ms⟩ := by
  intro p e made made' q pattern
  cases made
  cases made'
  rw [toPattern] at pattern
  cases pattern
  rfl

/-- An element without a default is its target. -/
theorem agree_element (agree : Agree n w) :
    Agree ⟨.bindingElement, span, text, [n]⟩ ⟨.assignment, span', text', [w]⟩ := by
  intro p e made made'
  obtain ⟨x, stands, read⟩ := bind_ok.1 made
  rw [piece_build] at stands
  obtain ⟨target, here, done⟩ := bind_ok.1 stands
  cases done
  cases read
  obtain ⟨x, stands', read'⟩ := bind_ok.1 made'
  rw [piece_build] at stands'
  obtain ⟨e', here', done'⟩ := bind_ok.1 stands'
  cases done'
  cases read'
  exact agree p e here here'

/-- A plain assignment, of which the target is built before the value. -/
theorem expr_assignment {e : Expr} (plain : (build op).piece = .ok (.assignOp .plain))
    (made : (build ⟨.assignment, span, text, [w, op, v]⟩).expr = .ok e) :
    ∃ left target value, (build w).expr = .ok left ∧ toPattern left = .ok target ∧
      (build v).expr = .ok value ∧ e = .assign span .plain target value := by
  obtain ⟨x, stands, read⟩ := bind_ok.1 made
  rw [piece_build] at stands
  obtain ⟨left, here, stands⟩ := bind_ok.1 stands
  obtain ⟨y, operator, stands⟩ := bind_ok.1 stands
  cases plain.symm.trans operator
  obtain ⟨target, pattern, stands⟩ := bind_ok.1 stands
  obtain ⟨value, there, done⟩ := bind_ok.1 stands
  cases done
  cases read
  exact ⟨left, target, value, here, pattern, there, rfl⟩

/-- A default is the value of a plain assignment. -/
theorem agree_default (agree : Agree n w) (plain : (build op).piece = .ok (.assignOp .plain)) :
    Agree ⟨.bindingElement, span, text, [n, v]⟩ ⟨.assignment, span', text', [w, op, v]⟩ := by
  intro p e made made' q pattern
  obtain ⟨x, stands, read⟩ := bind_ok.1 made
  rw [piece_build] at stands
  obtain ⟨target, here, stands⟩ := bind_ok.1 stands
  obtain ⟨value, there, done⟩ := bind_ok.1 stands
  cases done
  cases read
  obtain ⟨left, target', value', here', pattern', there', rfl⟩ := expr_assignment plain made'
  cases there.symm.trans there'
  rw [toPattern] at pattern
  cases pattern
  rw [Pattern.bare, Pattern.bare, agree target left here here' target' pattern']

theorem agree_array (agree : List.Forall₂ SlotAgree ns ms) :
    Agree ⟨.arrayBinding, span, text, ns⟩ ⟨.arrayLiteral, span', text', ms⟩ := by
  intro p e made made'
  obtain ⟨x, stands, read⟩ := bind_ok.1 made
  rw [piece_build] at stands
  obtain ⟨slots, here, stands⟩ := bind_ok.1 stands
  obtain ⟨_, -, done⟩ := bind_ok.1 stands
  cases done
  cases read
  obtain ⟨x, stands', read'⟩ := bind_ok.1 made'
  rw [piece_build] at stands'
  obtain ⟨items, here', done'⟩ := bind_ok.1 stands'
  cases done'
  cases read'
  exact array_covers (each_agree agree here here')

theorem agree_object (agree : List.Forall₂ MemberAgree ns ms) :
    Agree ⟨.objectBinding, span, text, ns⟩ ⟨.objectLiteral, span', text', ms⟩ := by
  intro p e made made'
  obtain ⟨x, stands, read⟩ := bind_ok.1 made
  rw [piece_build] at stands
  obtain ⟨⟨ps, r⟩, here, done⟩ := bind_ok.1 stands
  cases done
  cases read
  obtain ⟨x, stands', read'⟩ := bind_ok.1 made'
  rw [piece_build] at stands'
  obtain ⟨members, here', done'⟩ := bind_ok.1 stands'
  cases done'
  cases read'
  exact object_covers (members_agree agree here') here

/-! ### Slots and members -/

/-- What an assignment stands for is an expression. -/
theorem piece_assignment {x : Piece} (made : (build ⟨.assignment, span, text, ns⟩).piece = .ok x) :
    ∃ e, x = .expr e ∧ (build ⟨.assignment, span, text, ns⟩).expr = .ok e := by
  suffices ∃ e, x = .expr e by
    obtain ⟨e, rfl⟩ := this
    refine ⟨e, rfl, ?_⟩
    unfold Part.expr
    rw [made]
    rfl
  rw [piece_build] at made
  change assignment span (ns.map build) = .ok x at made
  unfold assignment at made
  split at made
  · obtain ⟨e, -, done⟩ := bind_ok.1 made
    cases done
    exact ⟨e, rfl⟩
  · obtain ⟨left, -, made⟩ := bind_ok.1 made
    obtain ⟨y, -, made⟩ := bind_ok.1 made
    split at made
    · dsimp only at made
      split at made
      all_goals
        obtain ⟨target, -, made⟩ := bind_ok.1 made
        obtain ⟨value, -, done⟩ := bind_ok.1 made
        cases done
        exact ⟨_, rfl⟩
    · cases made
  · cases made

theorem slot_hole :
    SlotAgree ⟨.arrayBindingSlot, span, text, []⟩ ⟨.arraySlot, span', text', []⟩ := by
  intro p i made made'
  cases made
  cases made'
  exact .hole

theorem slotPattern_single {p : Option Pattern}
    (made : slotPattern (build ⟨.arrayBindingSlot, span, text, [n]⟩) = .ok p) :
    ∃ q, p = some q ∧ (build n).pattern = .ok q := by
  obtain ⟨x, stands, read⟩ := bind_ok.1 made
  rw [piece_build] at stands
  obtain ⟨q, here, done⟩ := bind_ok.1 stands
  cases done
  cases read
  exact ⟨q, rfl, here⟩

theorem slotItem_single {i : Item} (made : slotItem (build ⟨.arraySlot, span, text, [m]⟩) = .ok i) :
    item (build m) = .ok i := by
  obtain ⟨x, stands, read⟩ := bind_ok.1 made
  rw [piece_build] at stands
  obtain ⟨j, here, done⟩ := bind_ok.1 stands
  cases done
  cases read
  exact here

theorem slot_one (agree : Agree n ⟨.assignment, span, text, ms⟩) {s s' : Span} {t t' : String} :
    SlotAgree ⟨.arrayBindingSlot, s, t, [n]⟩
      ⟨.arraySlot, s', t', [⟨.assignment, span, text, ms⟩]⟩ := by
  intro p i made made'
  obtain ⟨q, rfl, here⟩ := slotPattern_single made
  obtain ⟨x, stands, read⟩ := bind_ok.1 (slotItem_single made')
  obtain ⟨e, rfl, there⟩ := piece_assignment stands
  obtain ⟨e', same, done⟩ := bind_ok.1 read
  cases there.symm.trans same
  cases done
  exact .one (agree q e here there)

theorem pattern_restElement {q : Pattern}
    (made : (build ⟨.restElement, span, text, [n]⟩).pattern = .ok q) :
    ∃ target, q = .rest span target ∧ (build n).pattern = .ok target := by
  obtain ⟨x, stands, read⟩ := bind_ok.1 made
  rw [piece_build] at stands
  obtain ⟨target, here, done⟩ := bind_ok.1 stands
  cases done
  cases read
  exact ⟨target, rfl, here⟩

theorem piece_spread {x : Piece} (made : (build ⟨.spread, span, text, [m]⟩).piece = .ok x) :
    ∃ e, x = .spread e ∧ (build m).expr = .ok e := by
  rw [piece_build] at made
  obtain ⟨e, here, done⟩ := bind_ok.1 made
  cases done
  exact ⟨e, rfl, here⟩

theorem slot_rest (agree : Agree n m) {s s' t t' : Span} {u u' v v' : String} :
    SlotAgree ⟨.arrayBindingSlot, s, u, [⟨.restElement, t, v, [n]⟩]⟩
      ⟨.arraySlot, s', u', [⟨.spread, t', v', [m]⟩]⟩ := by
  intro p i made made'
  obtain ⟨q, rfl, here⟩ := slotPattern_single made
  obtain ⟨target, rfl, inside⟩ := pattern_restElement here
  obtain ⟨x, stands, read⟩ := bind_ok.1 (slotItem_single made')
  obtain ⟨e, rfl, there⟩ := piece_spread stands
  cases read
  exact .rest (agree target e inside there)

theorem member_property (agree : Agree n m) :
    MemberAgree ⟨.objectBindingProperty, span, text, [k, n]⟩
      ⟨.propertyAssignment, span', text', [k, m]⟩ := by
  intro x y made made'
  rw [piece_build] at made
  obtain ⟨key, named, made⟩ := bind_ok.1 made
  obtain ⟨p, here, done⟩ := bind_ok.1 made
  cases done
  obtain ⟨x', stands, read⟩ := bind_ok.1 made'
  rw [piece_build] at stands
  obtain ⟨key', named', stands⟩ := bind_ok.1 stands
  obtain ⟨e, there, done⟩ := bind_ok.1 stands
  cases done
  cases read
  cases named.symm.trans named'
  exact .property (agree p e here there)

theorem member_name {s s' : Span} {t t' name : String} : MemberAgree
    ⟨.bindingElement, s, t, [⟨.identifier, span, name, ns⟩]⟩
    ⟨.shorthand, s', t', [⟨.identifier, span', name, ms⟩]⟩ := by
  intro x y made made'
  cases made
  cases made'
  exact .name

theorem member_rest (agree : Agree n m) :
    MemberAgree ⟨.restElement, span, text, [n]⟩ ⟨.spread, span', text', [m]⟩ := by
  intro x y made made'
  rw [piece_build] at made
  obtain ⟨p, here, done⟩ := bind_ok.1 made
  cases done
  obtain ⟨x', stands, read⟩ := bind_ok.1 made'
  obtain ⟨e, rfl, there⟩ := piece_spread stands
  cases read
  exact .rest (agree p e here there)

end Nodes

end Tree

end Scriptlet
