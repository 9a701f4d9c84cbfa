import Scriptlet.Proofs.Tree.Construct
import Scriptlet.Tree.FreeReturn

/-!
Jumps that leave a statement.

A jump is free in a statement if nothing in that statement takes it up: no loop or switch takes up a
`break`, no loop a `continue`, and none of them stands in a function. Main statement: the check for
returns finds the free return that comes first in the text, and finds none only if there is none.
-/

namespace Scriptlet

open Construct (Laid laid_cons laid_single)

inductive Jump where
  | break_
  | continue_
  | return_
  deriving DecidableEq, Repr

def Handler.body : Handler → List Stmt
  | .nothing => []
  | .catch_ _ _ b => b.body

namespace Stmt

/-- The jump that a statement consists in. -/
def jump? : Stmt → Option Jump
  | .break_ _ => some .break_
  | .continue_ _ => some .continue_
  | .return_ _ _ => some .return_
  | _ => none

/-- The statements right below a statement. Those of functions belong to the functions. -/
def inner : Stmt → List Stmt
  | .block _ b => b.body
  | .if_ _ _ yes no => yes :: no.toList
  | .for_ _ _ _ _ body | .forEach _ _ _ _ _ body | .while_ _ _ body | .doWhile _ body _ => [body]
  | .try_ _ b handler finalizer =>
    b.body ++ (handler.body ++ finalizer.toList.flatMap fun last => last.body)
  | .switch _ _ cases => cases.flatMap fun c => c.body
  | .expression _ _ | .declaration _ _ | .function _ _ | .empty _ | .break_ _ | .continue_ _
  | .return_ _ _ | .throw_ _ _ => []

/-- Whether a jump from inside a statement ends at it. -/
def takesUp : Stmt → Jump → Bool
  | .for_ _ _ _ _ _, j | .forEach _ _ _ _ _ _, j | .while_ _ _ _, j | .doWhile _ _ _, j =>
    j != .return_
  | .switch _ _ _, j => j == .break_
  | _, _ => false

/-- A jump in a statement that leaves it. -/
inductive FreeJump (j : Jump) : Stmt → Stmt → Prop where
  | here {s : Stmt} : s.jump? = some j → FreeJump j s s
  | inside {s t jump : Stmt} : s.takesUp j = false → t ∈ s.inner → FreeJump j t jump →
      FreeJump j s jump

def HasFree (s : Stmt) (j : Jump) : Prop :=
  ∃ jump, FreeJump j s jump

def SomeFree (body : List Stmt) (j : Jump) : Prop :=
  ∃ s ∈ body, s.HasFree j

/-! ### Induction over the statements inside -/

theorem sizeOf_block {b : Block} {t : Stmt} (member : t ∈ b.body) : sizeOf t < sizeOf b := by
  cases b with
  | mk body span =>
    have less : sizeOf t < sizeOf body := List.sizeOf_lt_of_mem member
    rw [Block.mk.sizeOf_spec]
    omega

theorem sizeOf_handler {h : Handler} {t : Stmt} (member : t ∈ h.body) : sizeOf t < sizeOf h := by
  cases h with
  | nothing => cases member
  | catch_ span param b =>
    have less := sizeOf_block member
    rw [Handler.catch_.sizeOf_spec]
    omega

theorem sizeOf_case {c : Case} {t : Stmt} (member : t ∈ c.body) : sizeOf t < sizeOf c := by
  cases c with
  | mk test body span =>
    have less : sizeOf t < sizeOf body := List.sizeOf_lt_of_mem member
    rw [Case.mk.sizeOf_spec]
    omega

theorem sizeOf_inner {s t : Stmt} (member : t ∈ s.inner) : sizeOf t < sizeOf s := by
  cases s with
  | block span b =>
    have less := sizeOf_block member
    rw [block.sizeOf_spec]
    omega
  | if_ span test yes no =>
    rcases List.mem_cons.1 member with rfl | member
    · rw [if_.sizeOf_spec]
      omega
    · cases Option.mem_toList.1 member
      rw [if_.sizeOf_spec, Option.some.sizeOf_spec]
      omega
  | for_ | forEach | while_ | doWhile =>
    cases List.mem_singleton.1 member
    simp +arith
  | try_ span b handler finalizer =>
    rw [try_.sizeOf_spec]
    rcases List.mem_append.1 member with member | member
    · have less := sizeOf_block member
      omega
    rcases List.mem_append.1 member with member | member
    · have less := sizeOf_handler member
      omega
    · obtain ⟨last, there, inside⟩ := List.mem_flatMap.1 member
      cases Option.mem_toList.1 there
      have less := sizeOf_block inside
      rw [Option.some.sizeOf_spec]
      omega
  | switch span subject cases =>
    obtain ⟨c, there, member⟩ := List.mem_flatMap.1 member
    have less := sizeOf_case member
    have less' := List.sizeOf_lt_of_mem there
    rw [switch.sizeOf_spec]
    omega
  | expression | declaration | function | empty | break_ | continue_ | return_ | throw_ =>
    cases member

theorem inner_induction {P : Stmt → Prop} (step : ∀ s, (∀ t ∈ s.inner, P t) → P s)
    (s : Stmt) : P s :=
  step s fun t _ => inner_induction step t
termination_by sizeOf s
decreasing_by exact sizeOf_inner ‹_›

/-! ### Where the statements inside stand -/

variable {source : String} {low high : Nat}

/-- The statements of a construct that groups statements. -/
def statementsOf : Construct → List Stmt
  | .block b | .catch_ _ _ b => b.body
  | .case c => c.body
  | _ => []

theorem statementsOf_laid {c : Construct} (formed : c.Formed source) :
    Laid source c.span.start ((statementsOf c).map .stmt) c.span.stop := by
  cases c with
  | block b => exact formed.rows (List.mem_singleton_self _)
  | catch_ span param b =>
    obtain ⟨mid, first, last⟩ := (formed.rows (List.mem_singleton_self _)).split
    obtain ⟨before, body, after⟩ := laid_single.1 last
    exact (body.rows (List.mem_singleton_self _)).widen (Nat.le_trans first.le before) after
  | case c =>
    obtain ⟨mid, first, last⟩ := (formed.rows (List.mem_singleton_self _)).split
    exact last.widen first.le (Nat.le_refl _)
  | _ => exact .nil formed.within.ordered

theorem groups_laid {cs : List Construct} (laid : Laid source low cs high) :
    Laid source low ((cs.flatMap statementsOf).map .stmt) high := by
  rw [List.map_flatMap]
  exact laid.flatMap fun _ _ formed => statementsOf_laid formed

/-- The statements inside a statement are in the order of the text, whatever stands between them. -/
theorem inner_laid {s : Stmt} (formed : (Construct.stmt s).Formed source) :
    Laid source s.span.start (s.inner.map .stmt) s.span.stop := by
  cases s with
  | block span b =>
    have laid := groups_laid (formed.rows (List.mem_singleton_self _))
    rwa [List.flatMap_singleton] at laid
  | if_ => exact (formed.rows (List.mem_singleton_self _)).tail
  | for_ => exact formed.rows (by simp [Construct.rows, rows, inner])
  | forEach => exact (formed.rows (List.mem_singleton_self _)).tail.tail
  | while_ => exact (formed.rows (List.mem_singleton_self _)).tail
  | doWhile =>
    obtain ⟨before, body, after⟩ := laid_cons.1 (formed.rows (List.mem_singleton_self _))
    exact laid_single.2 ⟨before, body, after.le⟩
  | try_ span b handler finalizer =>
    have laid := groups_laid (formed.rows (List.mem_singleton_self _))
    have same : (Construct.block b :: (handler.constructs ++ finalizer.toList.map .block)).flatMap
        statementsOf = (try_ span b handler finalizer).inner := by
      cases handler <;> cases finalizer <;>
        simp [statementsOf, Handler.constructs, Handler.body, inner]
    rwa [same] at laid
  | switch span subject cases =>
    have laid := groups_laid (formed.rows (List.mem_singleton_self _)).tail
    rwa [List.flatMap_map] at laid
  | expression | declaration | function | empty | break_ | continue_ | return_ | throw_ =>
    exact .nil formed.within.ordered

theorem FreeJump.laid {j : Jump} {s jump : Stmt} (free : FreeJump j s jump)
    (formed : (Construct.stmt s).Formed source) :
    Laid source s.span.start [.stmt jump] s.span.stop := by
  induction free with
  | here => exact formed.laid
  | @inside s t jump _ member _ ih =>
    have inner := inner_laid formed
    have there := List.mem_map_of_mem (f := Construct.stmt) member
    obtain ⟨before, after⟩ := inner.chain.inside (List.mem_map_of_mem (f := Construct.span) there)
    exact (ih (inner.formed _ there)).widen before after

/-! ### The check for returns -/

theorem takesUp_return (s : Stmt) : s.takesUp .return_ = false := by
  cases s <;> rfl

theorem firstFreeReturn?_append (body more : List Stmt) :
    firstFreeReturn? (body ++ more) = (firstFreeReturn? body).or (firstFreeReturn? more) := by
  induction body with
  | nil => simp [firstFreeReturn?]
  | cons s rest ih => simp [firstFreeReturn?, ih, Option.or_assoc]

theorem casesFreeReturn?_eq (cases : List Case) :
    casesFreeReturn? cases = firstFreeReturn? (cases.flatMap fun c => c.body) := by
  induction cases with
  | nil => simp [casesFreeReturn?, firstFreeReturn?]
  | cons c rest ih =>
    rw [casesFreeReturn?, List.flatMap_cons, firstFreeReturn?_append, ih]
    cases c
    rw [Case.freeReturn?]

theorem blockFreeReturn?_eq (b : Block) : b.freeReturn? = firstFreeReturn? b.body := by
  cases b
  rw [Block.freeReturn?]

/-- The check goes through the statements inside in their order. -/
theorem freeReturn?_eq {s : Stmt} (other : s.jump? ≠ some .return_) :
    s.freeReturn? = firstFreeReturn? s.inner := by
  cases s with
  | return_ => exact absurd rfl other
  | block span b => rw [freeReturn?, blockFreeReturn?_eq, inner]
  | if_ span test yes no =>
    cases no <;> simp [freeReturn?, inner, firstFreeReturn?, optionFreeReturn?]
  | try_ span b handler finalizer =>
    rw [freeReturn?, inner, firstFreeReturn?_append, firstFreeReturn?_append, blockFreeReturn?_eq]
    have handles : handler.freeReturn? = firstFreeReturn? handler.body := by
      cases handler with
      | nothing => simp [Handler.freeReturn?, Handler.body, firstFreeReturn?]
      | catch_ _ _ b => rw [Handler.freeReturn?, blockFreeReturn?_eq, Handler.body]
    have finishes : blockFreeReturn? finalizer =
        firstFreeReturn? (finalizer.toList.flatMap fun last => last.body) := by
      cases finalizer with
      | none => simp [blockFreeReturn?, firstFreeReturn?]
      | some last => simp [blockFreeReturn?, blockFreeReturn?_eq]
    rw [handles, finishes]
  | switch span subject cases => rw [freeReturn?, casesFreeReturn?_eq, inner]
  | for_ | forEach | while_ | doWhile => simp [freeReturn?, inner, firstFreeReturn?]
  | expression | declaration | function | empty | break_ | continue_ | throw_ =>
    simp [freeReturn?, inner, firstFreeReturn?]

theorem firstFreeReturn?_ne_none {body : List Stmt} {s : Stmt} (member : s ∈ body)
    (found : s.freeReturn? ≠ none) : firstFreeReturn? body ≠ none := by
  induction body with
  | nil => cases member
  | cons t rest ih =>
    rw [firstFreeReturn?]
    intro none
    obtain ⟨first, others⟩ := Option.or_eq_none_iff.1 none
    rcases List.mem_cons.1 member with rfl | member
    · exact found first
    · exact ih member others

/-- No free return is missed. -/
theorem FreeJump.freeReturn?_ne_none {s jump : Stmt} (free : FreeJump .return_ s jump) :
    s.freeReturn? ≠ none := by
  induction free with
  | @here s jumps =>
    cases s with
    | return_ => simp [freeReturn?]
    | _ => cases jumps
  | @inside s t jump _ member _ ih =>
    by_cases jumps : s.jump? = some .return_
    · cases s with
      | return_ => simp [freeReturn?]
      | _ => cases jumps
    · rw [freeReturn?_eq jumps]
      exact firstFreeReturn?_ne_none member ih

/-- The free return of a list of statements that comes before all others. -/
structure FirstReturn (body : List Stmt) (first : Stmt) : Prop where
  free : ∃ s ∈ body, FreeJump .return_ s first
  before : ∀ s ∈ body, ∀ jump, FreeJump .return_ s jump →
    jump = first ∨ first.span.stop ≤ jump.span.start

theorem firstFreeReturn?_first_of_each {body : List Stmt} {span : Span}
    (laid : Laid source low (body.map .stmt) high)
    (each : ∀ s ∈ body, ∀ span, (Construct.stmt s).Formed source → s.freeReturn? = some span →
      ∃ first, FirstReturn [s] first ∧ first.span = span)
    (found : firstFreeReturn? body = some span) :
    ∃ first, FirstReturn body first ∧ first.span = span := by
  induction body generalizing low with
  | nil => simp [firstFreeReturn?] at found
  | cons s rest ih =>
    obtain ⟨before, formed, after⟩ := laid_cons.1 laid
    obtain ⟨one, others⟩ := List.forall_mem_cons.1 each
    rw [firstFreeReturn?] at found
    cases here : s.freeReturn? with
    | some there =>
      rw [here] at found
      cases found
      obtain ⟨first, ⟨free, ahead⟩, same⟩ := one _ formed here
      obtain ⟨_, member, free⟩ := free
      cases List.mem_singleton.1 member
      refine ⟨first, ⟨⟨s, List.mem_cons_self, free⟩, ?_⟩, same⟩
      intro t member jump free'
      rcases List.mem_cons.1 member with rfl | member
      · exact ahead t (List.mem_singleton_self t) jump free'
      · -- A return of a later statement starts after the end of this one.
        have ends := laid_single.1 (free.laid formed)
        have there := List.mem_map_of_mem (f := Construct.stmt) member
        have starts := laid_single.1 (free'.laid (after.formed _ there))
        have order := after.chain.inside (List.mem_map_of_mem (f := Construct.span) there)
        exact .inr (Nat.le_trans ends.2.2 (Nat.le_trans order.1 starts.1))
    | none =>
      rw [here] at found
      obtain ⟨first, ⟨⟨t, member, free⟩, ahead⟩, same⟩ := ih after others found
      refine ⟨first, ⟨⟨t, List.mem_cons_of_mem _ member, free⟩, ?_⟩, same⟩
      intro t member jump free'
      rcases List.mem_cons.1 member with rfl | member
      · exact absurd here free'.freeReturn?_ne_none
      · exact ahead t member jump free'

theorem freeReturn?_first (s : Stmt) :
    ∀ span, (Construct.stmt s).Formed source → s.freeReturn? = some span →
      ∃ first, FirstReturn [s] first ∧ first.span = span := by
  induction s using inner_induction with
  | step s ih =>
    intro span formed found
    by_cases jumps : s.jump? = some .return_
    · have self : FirstReturn [s] s := by
        refine ⟨⟨s, List.mem_singleton_self s, .here jumps⟩, ?_⟩
        rintro _ member jump free
        cases List.mem_singleton.1 member
        cases free with
        | here => exact .inl rfl
        | inside _ member _ =>
          cases s with
          | return_ => cases member
          | _ => cases jumps
      refine ⟨s, self, ?_⟩
      cases s with
      | return_ =>
        rw [freeReturn?] at found
        exact Option.some.inj found
      | _ => cases jumps
    · rw [freeReturn?_eq jumps] at found
      obtain ⟨first, ⟨⟨t, member, free⟩, ahead⟩, same⟩ :=
        firstFreeReturn?_first_of_each (inner_laid formed) ih found
      refine
        ⟨first, ⟨⟨s, List.mem_singleton_self s, .inside s.takesUp_return member free⟩, ?_⟩, same⟩
      rintro _ member jump free
      cases List.mem_singleton.1 member
      cases free with
      | here jumps' => exact absurd jumps' jumps
      | inside _ member free => exact ahead _ member jump free

/-- What the check finds is the first free return. -/
theorem firstFreeReturn?_first {body : List Stmt} {span : Span}
    (laid : Laid source low (body.map .stmt) high) (found : firstFreeReturn? body = some span) :
    ∃ first, FirstReturn body first ∧ first.span = span :=
  firstFreeReturn?_first_of_each laid (fun s _ => freeReturn?_first s) found

theorem firstFreeReturn?_none {body : List Stmt} (none : firstFreeReturn? body = none) :
    ¬SomeFree body .return_ := by
  rintro ⟨s, member, jump, free⟩
  exact firstFreeReturn?_ne_none member free.freeReturn?_ne_none none

end Stmt

end Scriptlet
