import Mathlib.Data.List.Basic
import Scriptlet.Proofs.Layout.Part
import Scriptlet.Tree.Binding

/-!
Functions and the patterns that declare names are laid out if their parts are.
-/

namespace Scriptlet.Tree

open Construct (Formed Laid laid_nil laid_cons laid_single)

variable {source : String} {p : Part} {parts : List Part} {span : Span} {low high : Nat}

theorem checkRestLast_placed {ps : List Pattern}
    (laid : Laid source low (ps.map (.pattern true)) high) :
    Places source (checkRestLast ps) fun _ => True := by
  induction ps generalizing low with
  | nil => exact .pure trivial
  | cons p rest ih =>
    obtain ⟨_, formed, after⟩ := laid_cons.1 laid
    cases rest with
    | nil => exact .pure trivial
    | cons q rest =>
      rw [checkRestLast]
      split
      · exact .fails formed.within.inside
      · exact ih after
      · exact List.cons_ne_nil q rest

theorem withDefault_formed {p : Pattern} {value : Expr} (within : span.Within source)
    (laid : Laid source span.start [.pattern true p, .expr value] span.stop) :
    (Construct.pattern true (.withDefault span p value)).Formed source :=
  .of_row within rfl trivial rfl laid

theorem bindingElement_placed (site : Site source span parts) :
    Placed source span (bindingElement span parts) := by
  unfold bindingElement
  split
  · obtain ⟨before, part, after⟩ := site.laid
    exact .bind (pattern_placed part) fun q here => .pure (here.widen before after)
  · obtain ⟨before, first, gap, second, after⟩ := site.laid
    apply Places.bind (pattern_placed first)
    intro q one
    refine .bind (expr_placed second) fun value two => .pure ?_
    exact (withDefault_formed site.within ((one.append gap two).widen before after)).laid
  · exact .unexpected site.within

theorem restElement_placed (site : Site source span parts) :
    Placed source span (restElement span parts) := by
  unfold restElement
  split
  · obtain ⟨before, part, after⟩ := site.laid
    refine .bind (pattern_placed part) fun q here => .pure ?_
    exact (Formed.of_row (c := .pattern true (.rest span q)) site.within rfl trivial rfl
      (here.widen before after)).laid
  · exact .unexpected site.within

theorem arrayBindingSlot_placed (site : Site source span parts) :
    Placed source span (arrayBindingSlot span parts) := by
  unfold arrayBindingSlot
  split
  · exact .pure (.nil site.within.ordered)
  · obtain ⟨before, part, after⟩ := site.laid
    exact .bind (pattern_placed part) fun q here => .pure (here.widen before after)
  · exact .unexpected site.within

theorem slotPattern_placed (part : p.Laid source) :
    Places source (slotPattern p) fun slot =>
      Laid source p.span.start (slot.toList.map (.pattern true)) p.span.stop := by
  apply Places.bind part.placed
  intro piece here
  cases piece with
  | bindingSlot slot => exact .pure here
  | _ => exact .unexpected part.within

theorem filterMap_dropLastElision (slots : List (Option Pattern)) :
    (dropLastElision slots).filterMap id = slots.flatMap Option.toList := by
  unfold dropLastElision
  split
  · rename_i last
    obtain ⟨before, rfl⟩ := List.getLast?_eq_some_iff.1 last
    simp [List.filterMap_eq_flatMap_toList]
  · simp [List.filterMap_eq_flatMap_toList]

theorem arrayBinding_placed (site : Site source span parts) :
    Placed source span (arrayBinding span parts) := by
  apply Places.bind (each_placed (fun _ part => slotPattern_placed part) site.laid)
  intro slots there
  rw [← List.map_flatMap, ← filterMap_dropLastElision] at there
  refine .bind (checkRestLast_placed there).keep fun _ checked => .pure ?_
  exact (Formed.of_row (c := .pattern true (.array span (dropLastElision slots))) site.within rfl
    (rests_filterMap.1 (checkRestLast_ok.1 checked.1)) rfl there).laid

theorem objectBindingProperty_placed (site : Site source span parts) :
    Placed source span (objectBindingProperty span parts) := by
  unfold objectBindingProperty
  split
  · obtain ⟨before, first, gap, second, after⟩ := site.laid
    apply Places.bind (key_placed first)
    intro key one
    refine .bind (pattern_placed second) fun q two => .pure ⟨?_, ?_⟩
    · exact one.widen before (Nat.le_trans gap (Nat.le_trans second.within.ordered after))
    · exact two.widen (Nat.le_trans before (Nat.le_trans first.within.ordered gap)) after
  · exact .unexpected site.within

theorem shorthandProperty_placed {p : Pattern} (within : span.Within source)
    (laid : Laid source span.start [.pattern true p] span.stop) :
    Places source (shorthandProperty span p) fun q =>
      (Piece.bindingProperty q).Laid source span := by
  unfold shorthandProperty
  split
  · exact .pure ⟨.nil within.ordered, laid⟩
  · exact .pure ⟨.nil within.ordered, laid⟩
  · exact .unexpected within

/-- What the members of an object pattern consist of; the rest is a name. -/
structure Members (source : String) (low : Nat) (made : List PatternProperty × Option Pattern)
    (high : Nat) : Prop where
  keys : Laid source low (made.1.flatMap fun q => q.key.constructs) high
  values : Laid source low ((made.1.map (·.value) ++ made.2.toList).map (.pattern true)) high
  rest : ∀ q ∈ made.2, ∃ s name, q = .identifier s name

theorem Members.cons {made : List PatternProperty × Option Pattern} {q : PatternProperty}
    (before : low ≤ span.start) (here : (Piece.bindingProperty q).Laid source span)
    (there : Members source span.stop made high) :
    Members source low (q :: made.1, made.2) high where
  keys := (here.1.append (Nat.le_refl _) there.keys).widen before (Nat.le_refl _)
  values := (here.2.append (Nat.le_refl _) there.values).widen before (Nat.le_refl _)
  rest := there.rest

theorem bindingMembers_placed (laid : PartsLaid source low parts high) :
    Places source (bindingMembers parts) fun made => Members source low made high := by
  induction parts generalizing low with
  | nil => exact .pure ⟨.nil laid, .nil laid, by simp⟩
  | cons p rest ih =>
    obtain ⟨before, part, after⟩ := laid
    have more {q : PatternProperty} (here : (Piece.bindingProperty q).Laid source p.span) :
        Places source (do let made ← bindingMembers rest; return (q :: made.1, made.2)) fun made =>
          Members source low made high :=
      .bind (ih after) fun made there => .pure (.cons before here there)
    have short {q : Pattern} (here : Laid source p.span.start [.pattern true q] p.span.stop) :
        Places source (do
          let q ← shorthandProperty p.span q
          let made ← bindingMembers rest
          return (q :: made.1, made.2)) fun made => Members source low made high :=
      .bind (shorthandProperty_placed part.within here) fun q there => more there
    apply Places.bind part.placed
    intro piece here
    cases piece with
    | bindingProperty q => exact more here
    | _ =>
      apply Places.bind (pattern_placed part)
      intro q there
      cases q with
      | rest span inner =>
        cases inner with
        | identifier s name =>
          cases rest with
          | nil =>
            obtain ⟨start, formed, stop⟩ := laid_single.1 there
            have last := formed.rows (List.mem_singleton_self _)
            refine .pure
              ⟨.nil (Nat.le_trans before (Nat.le_trans part.within.ordered after)), ?_, ?_⟩
            · exact last.widen (Nat.le_trans before start) (Nat.le_trans stop after)
            · simp
          | cons next others => exact .fails after.2.1.within.inside
        | _ => exact .fails part.within.inside
      | _ => exact short there

theorem objectBinding_placed (site : Site source span parts) :
    Placed source span (objectBinding span parts) := by
  refine .bind (bindingMembers_placed site.laid) fun made there => .pure ?_
  obtain ⟨properties, others⟩ := made
  refine (Formed.of_rows (c := .pattern true (.object span properties others)) site.within ?_
    trivial ?_).laid
  · cases others with
    | none => rfl
    | some q =>
      obtain ⟨s, name, rfl⟩ := there.rest q rfl
      rfl
  · exact List.forall_mem_cons.2 ⟨there.keys, List.forall_mem_singleton.2 there.values⟩

theorem parameterList_placed (site : Site source span parts) :
    Placed source span (parameters parts) := by
  apply Places.bind (each_single (fun _ part => pattern_placed part) site.laid)
  intro ps there
  exact .bind (checkRestLast_placed there).keep fun _ checked =>
    .pure ⟨there, checkRestLast_ok.1 checked.1⟩

theorem functionBlock_placed (site : Site source span parts) :
    Placed source span (functionBlock span parts) := by
  refine .bind (each_single (fun _ part => stmt_placed part) site.laid) fun body there => .pure ?_
  exact (Formed.of_row (c := .block ⟨body, span⟩) site.within rfl trivial rfl there).laid

/-- A function with a name, unless it has two parts only. -/
theorem function_placed {kind : FunctionKind} (site : Site source span parts)
    (named : kind = .declaration → parts.length ≠ 2) :
    Places source (function kind span parts) fun fn =>
      fn.kind = kind ∧ Laid source span.start [.function fn] span.stop := by
  unfold function
  split
  · obtain ⟨before, first, gap, second, gap', third, after⟩ := site.laid
    apply Places.bind (name_placed first)
    intro name one
    apply Places.bind (parameters_placed second)
    intro params two
    refine .bind (block_placed third) fun body three => .pure ⟨rfl, ?_⟩
    refine (Formed.of_row (c := .function ⟨kind, some name, params, .block body, span⟩) site.within
      ?_ two.2 rfl (((one.append gap two.1).append gap' three).widen before after)).laid
    simp [Construct.isShaped]
  · obtain ⟨before, first, gap, second, after⟩ := site.laid
    apply Places.bind (parameters_placed first)
    intro params one
    refine .bind (block_placed second) fun body two => .pure ⟨rfl, ?_⟩
    refine (Formed.of_row (c := .function ⟨kind, none, params, .block body, span⟩) site.within
      ?_ one.2 rfl ((one.1.append gap two).widen before after)).laid
    simpa [Construct.isShaped] using named
  · exact .unexpected site.within

theorem Site.drop (site : Site source span parts) (n : Nat) : Site source span (parts.drop n) :=
  ⟨site.within, site.laid.drop n⟩

theorem functionDeclaration_placed (site : Site source span parts) (four : parts.length = 4) :
    Placed source span (functionDeclaration span parts) := by
  refine .bind (function_placed (site.drop 1) (by simp [four])) fun fn here => .pure ?_
  refine (Formed.of_row (c := .stmt (.function span fn)) site.within ?_ trivial rfl here.2).laid
  simpa [Construct.isShaped] using here.1

theorem functionExpression_placed (site : Site source span parts) :
    Placed source span (functionExpression span parts) := by
  refine .bind (function_placed (site.drop 1) nofun) fun fn here => .pure ?_
  exact (Formed.of_row (c := .expr (.function span fn)) site.within rfl trivial rfl here.2).laid

theorem arrowParameters_placed (site : Site source span parts) :
    Placed source span (arrowParameters span parts) := by
  unfold arrowParameters
  split
  · rename_i p
    obtain ⟨before, part, after⟩ := site.laid
    have single : Placed source span (do return .parameters [← p.pattern]) :=
      .bind (pattern_placed part) fun q here =>
        .pure ⟨here.widen before after, List.pairwise_singleton ..⟩
    apply Places.bind part.placed
    intro piece here
    cases piece with
    | parameters ps => exact .pure ⟨here.1.widen before after, here.2⟩
    | _ => exact single
  · exact .unexpected site.within

theorem arrowBody_placed (site : Site source span parts) :
    Placed source span (arrowBody span parts) := by
  unfold arrowBody
  split
  · rename_i p
    obtain ⟨before, part, after⟩ := site.laid
    have single : Placed source span (do return .functionBody (.expression (← p.expr))) :=
      .bind (expr_placed part) fun e here => .pure (here.widen before after)
    apply Places.bind part.placed
    intro piece here
    cases piece with
    | block b => exact .pure (here.widen before after)
    | _ => exact single
  · exact .unexpected site.within

theorem arrowFunction_placed (site : Site source span parts) :
    Placed source span (arrowFunction span parts) := by
  unfold arrowFunction
  split
  · obtain ⟨before, first, gap, second, after⟩ := site.laid
    apply Places.bind (parameters_placed first)
    intro params one
    apply Places.bind second.placed
    intro piece two
    cases piece with
    | functionBody body =>
      have fn : (Construct.function ⟨.arrow, none, params, body, span⟩).Formed source :=
        .of_row site.within rfl one.2 rfl ((one.1.append gap two).widen before after)
      exact .pure
        (Formed.of_row (c := .expr (.function span _)) site.within rfl trivial rfl fn.laid).laid
    | _ => exact .unexpected site.within
  · exact .unexpected site.within

end Scriptlet.Tree
