import Mathlib.Logic.Relation
import Scriptlet.Proofs.Grammar.Reading

/-!
Brackets, strings and templates that are open at a place of a text.

Reading a text from the left opens and closes them in one way only, and what is open in front of a
closing bracket does not depend on what stands behind it. Main statement: `Lexer.Path.swap`.
-/

namespace Scriptlet.Grammar

/-- What can be open at a place of a program. A hole is a substitution inside a template. -/
inductive Frame where
  | round | square | curly | hole | double | single | template
  deriving DecidableEq, Repr

namespace Lexer

open Relation

/-- Whether words stand in the innermost frame, as opposed to characters of a string or a
template. -/
def inCode : List Frame → Bool
  | .double :: _ | .single :: _ | .template :: _ => false
  | _ => true

/-- The step over what follows a backslash. -/
def escaped : Step
  | '\r' :: '\n' :: rest => some rest
  | _ :: rest => some rest
  | [] => none

/-- The step over a character of a string between quotes `q`. -/
def quotedUnit (q : Char) : Step
  | '\\' :: rest => escaped rest
  | x :: rest => if x = q ∨ isLineEnd x then none else some rest
  | [] => none

/-- The step over a character of a template. -/
def templateUnit : Step
  | '\\' :: rest => escaped rest
  | '$' :: '\x7b' :: _ => none
  | x :: rest => if x = '\x60' then none else some rest
  | [] => none

/-- The step over layout or over a character, whichever the innermost frame holds. -/
def unit : List Frame → Step
  | .double :: _ => quotedUnit '"'
  | .single :: _ => quotedUnit '\x27'
  | .template :: _ => templateUnit
  | _ => layoutUnit

/-- What is open, and the text ahead. -/
abbrev State := List Frame × List Char

/-- What is open after a character where words stand. -/
def word (open_ : List Frame) : Char → Option (List Frame)
  | '(' => some (.round :: open_)
  | '[' => some (.square :: open_)
  | '\x7b' => some (.curly :: open_)
  | '"' => some (.double :: open_)
  | '\x27' => some (.single :: open_)
  | '\x60' => some (.template :: open_)
  | ')' => match open_ with
    | .round :: outer => some outer
    | _ => none
  | ']' => match open_ with
    | .square :: outer => some outer
    | _ => none
  | '\x7d' => match open_ with
    | .curly :: outer | .hole :: outer => some outer
    | _ => none
  | _ => some open_

/-- The step over a character that opens or closes a frame, or stands in a word. There is none over
a comment without an end. -/
def turn (open_ : List Frame) (rest : List Char) (x : Char) : Option State :=
  match open_ with
  | .double :: outer => if x = '"' then some (outer, rest) else none
  | .single :: outer => if x = '\x27' then some (outer, rest) else none
  | .template :: outer =>
    if x = '\x60' then some (outer, rest)
    else if ['$', '\x7b'] <+: x :: rest then some (.hole :: open_, rest.drop 1)
    else none
  | _ => if ['/', '*'] <+: x :: rest then none else (word open_ x).map (·, rest)

/-- A step from left to right. There is none at a closing bracket that nothing has opened, nor at a
comment without an end. -/
def step : State → Option State
  | (open_, cs) =>
    match unit open_ cs with
    | some rest => some (open_, rest)
    | none =>
      match cs with
      | x :: rest => turn open_ rest x
      | [] => none

/-- One state leads to another. -/
def Path : State → State → Prop :=
  ReflTransGen fun s t => step s = some t

/-! ### Steps read on -/

theorem blockEnd?_suffix {cs rest : List Char} (read : blockEnd? cs = some rest) :
    rest <:+ cs ∧ rest.length < cs.length := by
  induction cs with
  | nil => cases read
  | cons x cs ih =>
    rw [blockEnd?.eq_def] at read
    split at read
    next same =>
      cases same
      cases read
      exact ⟨⟨['*', '/'], rfl⟩, by simp only [List.length_cons]; omega⟩
    next same =>
      cases same
      obtain ⟨suffix, shorter⟩ := ih read
      exact ⟨suffix.trans (List.suffix_cons ..), Nat.lt_succ_of_lt shorter⟩
    next => cases read

theorem layoutUnit_suffix {cs rest : List Char} (read : layoutUnit cs = some rest) :
    rest <:+ cs ∧ rest.length < cs.length := by
  unfold layoutUnit at read
  split at read
  next tail =>
    cases read
    have suffix := List.dropWhile_suffix (l := tail) fun x => !isLineEnd x
    exact ⟨suffix.trans ⟨['/', '/'], rfl⟩, by have := suffix.length_le; simp; omega⟩
  next tail =>
    obtain ⟨suffix, shorter⟩ := blockEnd?_suffix read
    exact ⟨suffix.trans ⟨['/', '*'], rfl⟩, by simp; omega⟩
  next x tail _ _ =>
    split at read <;> cases read
    exact ⟨List.suffix_cons .., by simp⟩
  next => cases read

theorem escaped_suffix {cs rest : List Char} (read : escaped cs = some rest) :
    rest <:+ cs ∧ rest.length < cs.length := by
  unfold escaped at read
  split at read <;> cases read
  · exact ⟨⟨['\r', '\n'], rfl⟩, by simp only [List.length_cons]; omega⟩
  · exact ⟨List.suffix_cons .., by simp⟩

theorem quotedUnit_suffix {q : Char} {cs rest : List Char} (read : quotedUnit q cs = some rest) :
    rest <:+ cs ∧ rest.length < cs.length := by
  unfold quotedUnit at read
  split at read
  · obtain ⟨suffix, shorter⟩ := escaped_suffix read
    exact ⟨suffix.trans (List.suffix_cons ..), Nat.lt_succ_of_lt shorter⟩
  · split at read <;> cases read
    exact ⟨List.suffix_cons .., by simp⟩
  · cases read

theorem templateUnit_suffix {cs rest : List Char} (read : templateUnit cs = some rest) :
    rest <:+ cs ∧ rest.length < cs.length := by
  unfold templateUnit at read
  split at read
  · obtain ⟨suffix, shorter⟩ := escaped_suffix read
    exact ⟨suffix.trans (List.suffix_cons ..), Nat.lt_succ_of_lt shorter⟩
  · cases read
  · split at read <;> cases read
    exact ⟨List.suffix_cons .., by simp⟩
  · cases read

theorem unit_suffix {open_ : List Frame} {cs rest : List Char} (read : unit open_ cs = some rest) :
    rest <:+ cs ∧ rest.length < cs.length := by
  unfold unit at read
  split at read
  · exact quotedUnit_suffix read
  · exact quotedUnit_suffix read
  · exact templateUnit_suffix read
  · exact layoutUnit_suffix read

theorem turn_suffix {open_ : List Frame} {rest : List Char} {x : Char} {t : State}
    (turned : turn open_ rest x = some t) : t.2 <:+ rest := by
  unfold turn at turned
  split at turned
  · split at turned <;> cases turned
    exact List.suffix_rfl
  · split at turned <;> cases turned
    exact List.suffix_rfl
  · split at turned
    · cases turned
      exact List.suffix_rfl
    · split at turned <;> cases turned
      exact List.drop_suffix ..
  · split at turned
    · cases turned
    · obtain ⟨outer, -, rfl⟩ := Option.map_eq_some_iff.1 turned
      exact List.suffix_rfl

theorem step_of_unit {open_ : List Frame} {cs rest : List Char} (read : unit open_ cs = some rest) :
    step (open_, cs) = some (open_, rest) := by
  simp only [step.eq_def, read]

theorem step_of_turn {open_ : List Frame} {x : Char} {rest : List Char}
    (none : unit open_ (x :: rest) = none) : step (open_, x :: rest) = turn open_ rest x := by
  simp only [step.eq_def, none]

theorem step_suffix {s t : State} (stepped : step s = some t) :
    t.2 <:+ s.2 ∧ t.2.length < s.2.length := by
  obtain ⟨open_, cs⟩ := s
  cases read : unit open_ cs with
  | some rest =>
    rw [step_of_unit read] at stepped
    cases stepped
    exact unit_suffix read
  | none =>
    cases cs with
    | nil =>
      simp only [step.eq_def, read] at stepped
      cases stepped
    | cons x rest =>
      rw [step_of_turn read] at stepped
      have suffix := turn_suffix stepped
      exact ⟨suffix.trans (List.suffix_cons ..), Nat.lt_succ_of_le suffix.length_le⟩

/-! ### Paths -/

namespace Path

variable {s t u : State}

theorem suffix (path : Path s t) : t.2 <:+ s.2 := by
  induction path with
  | refl => exact List.suffix_rfl
  | tail _ stepped ih => exact (step_suffix stepped).1.trans ih

theorem eq_of_length (path : Path s t) (length : s.2.length ≤ t.2.length) : s = t := by
  rcases path.cases_head with same | ⟨u, stepped, rest⟩
  · exact same
  · have := (step_suffix stepped).2
    have := (show Path u t from rest).suffix.length_le
    omega

/-- There is one way on from a state only. -/
theorem join (path : Path s t) (path' : Path s u) (length : u.2.length ≤ t.2.length) :
    Path t u := by
  have unique {a b c : State} (one : step a = some b) (other : step a = some c) : b = c :=
    Option.some.inj (one.symm.trans other)
  rcases ReflTransGen.total_of_right_unique @unique path path' with on | back
  · exact on
  · rw [eq_of_length back length]
    exact .refl

end Path

/-! ### What stands behind a closing bracket -/

def closes (x : Char) : Bool :=
  x == ')' || x == ']' || x == '\x7d'

/-- A text that ends here or goes on with a closing bracket. -/
def Closed (cs : List Char) : Prop :=
  ∀ x rest, cs = x :: rest → closes x = true

theorem closed_cons {y : Char} {ys : List Char} (closing : closes y = true) : Closed (y :: ys) := by
  rintro _ _ ⟨⟩
  exact closing

/-- A literal that closes nothing after its first character ends before a closing bracket. -/
theorem Closed.prefix_append_iff {a cs τ : List Char} (closed : Closed τ) (ahead : a ≠ [])
    (inside : cs.tail.any closes = false) : cs <+: a ++ τ ↔ cs <+: a := by
  refine ⟨fun starts => ?_, fun starts => starts.trans (List.prefix_append ..)⟩
  rcases Nat.le_total cs.length a.length with short | long
  · exact List.prefix_of_prefix_length_le starts (List.prefix_append ..) short
  · obtain ⟨more, rfl⟩ := List.prefix_of_prefix_length_le (List.prefix_append ..) starts long
    cases more with
    | nil => simp
    | cons x more =>
      obtain ⟨rest, same⟩ := (List.prefix_append_right_inj a).1 starts
      have closing := closed x (more ++ rest) same.symm
      exact absurd closing
        (List.any_eq_false.1 inside x (by simp [List.tail_append_of_ne_nil ahead]))

section Swap

variable {a b : List Char} {y : Char} {ys τ : List Char}

theorem ne_nil_of_read (read : (b ++ y :: ys).length < (a ++ y :: ys).length) : a ≠ [] := by
  rintro rfl
  simp only [List.length_append, List.nil_append] at read
  omega

theorem ne_of_closes {x : Char} (closing : closes y = true) (other : closes x = false) : y ≠ x := by
  rintro rfl
  rw [closing] at other
  cases other

theorem blockEnd?_swap (closing : closes y = true)
    (read : blockEnd? (a ++ y :: ys) = some (b ++ y :: ys)) :
    blockEnd? (a ++ τ) = some (b ++ τ) := by
  have skip {x : Char} {rest : List Char} (other : ¬['*', '/'] <+: x :: rest) :
      blockEnd? (x :: rest) = blockEnd? rest := by
    rw [blockEnd?]
    rintro after rfl rfl
    exact other ⟨after, rfl⟩
  induction a with
  | nil => exact absurd rfl (ne_nil_of_read (blockEnd?_suffix read).2)
  | cons x a ih =>
    cases a with
    | nil =>
      rw [List.cons_append, skip (by simp [(ne_of_closes closing (x := '/') rfl).symm])] at read
      exact absurd rfl (ne_nil_of_read (blockEnd?_suffix read).2)
    | cons z a =>
      by_cases ends : x = '*' ∧ z = '/'
      · obtain ⟨rfl, rfl⟩ := ends
        simp only [List.cons_append, blockEnd?, Option.some.injEq, List.append_cancel_right_eq]
          at read ⊢
        exact read
      · have other (rest : List Char) : ¬['*', '/'] <+: x :: z :: rest := by
          simpa [eq_comm] using ends
        rw [List.cons_append, List.cons_append, skip (other _)] at read ⊢
        exact ih read

theorem dropWhile_swap (closing : closes y = true)
    (read : (a ++ y :: ys).dropWhile (!isLineEnd ·) = b ++ y :: ys) :
    (a ++ τ).dropWhile (!isLineEnd ·) = b ++ τ := by
  rw [List.dropWhile_append] at read ⊢
  split at read
  next none =>
    have stays := (List.dropWhile_suffix (l := ys) fun x => !isLineEnd x).length_le
    have inside : isLineEnd y = false := by
      simp [isLineEnd, ne_of_closes closing (x := '\n') rfl, ne_of_closes closing (x := '\r') rfl]
    have length := congrArg List.length read
    simp [inside] at length
    omega
  next some => rw [if_neg some, List.append_cancel_right read]

/-- Whether a text starts like a comment. -/
def StartsComment (cs : List Char) : Prop :=
  ['/', '/'] <+: cs ∨ ['/', '*'] <+: cs

theorem startsComment_append (closed : Closed τ) (ahead : a ≠ []) :
    StartsComment (a ++ τ) ↔ StartsComment a := by
  unfold StartsComment
  rw [closed.prefix_append_iff ahead (by decide), closed.prefix_append_iff ahead (by decide)]

theorem layoutUnit_of_word {x : Char} {cs : List Char} (word : ¬StartsComment (x :: cs)) :
    layoutUnit (x :: cs) = if CharClass.blank.holds x then some cs else none := by
  rw [layoutUnit]
  · rintro rest rfl rfl
    exact word (.inl ⟨_, rfl⟩)
  · rintro rest rfl rfl
    exact word (.inr ⟨_, rfl⟩)

/-- Layout in front of a closing bracket. -/
theorem layoutUnit_swap (closing : closes y = true) (closed : Closed τ)
    (read : layoutUnit (a ++ y :: ys) = some (b ++ y :: ys)) :
    layoutUnit (a ++ τ) = some (b ++ τ) := by
  cases a with
  | nil => exact absurd rfl (ne_nil_of_read (layoutUnit_suffix read).2)
  | cons x a =>
    by_cases comment : StartsComment (x :: a)
    · rcases comment with ⟨rest, same⟩ | ⟨rest, same⟩ <;>
        obtain ⟨rfl, rfl⟩ := List.cons.inj same
      · exact congrArg some (dropWhile_swap closing (Option.some.inj read))
      · exact blockEnd?_swap closing read
    · have word {τ : List Char} (closed : Closed τ) : ¬StartsComment (x :: (a ++ τ)) :=
        mt (startsComment_append (a := x :: a) closed (List.cons_ne_nil x a)).1 comment
      rw [List.cons_append, layoutUnit_of_word (word (closed_cons closing))] at read
      rw [List.cons_append, layoutUnit_of_word (word closed)]
      split at read
      next blank => rw [if_pos blank, List.append_cancel_right (Option.some.inj read)]
      next => cases read

theorem escaped_swap (closing : closes y = true) (closed : Closed τ)
    (read : escaped (a ++ y :: ys) = some (b ++ y :: ys)) : escaped (a ++ τ) = some (b ++ τ) := by
  have plain {x : Char} {rest : List Char} (other : ¬['\r', '\n'] <+: x :: rest) :
      escaped (x :: rest) = some rest := by
    rw [escaped]
    rintro after rfl rfl
    exact other ⟨after, rfl⟩
  cases a with
  | nil => exact absurd rfl (ne_nil_of_read (escaped_suffix read).2)
  | cons x a =>
    by_cases pair : ['\r', '\n'] <+: x :: a
    · obtain ⟨rest, same⟩ := pair
      obtain ⟨rfl, rfl⟩ := List.cons.inj same
      exact congrArg
        (fun rest => some (rest ++ τ)) (List.append_cancel_right (Option.some.inj read))
    · have other {τ : List Char} (closed : Closed τ) : ¬['\r', '\n'] <+: x :: (a ++ τ) :=
        mt (closed.prefix_append_iff (List.cons_ne_nil x a) (by decide)).1 pair
      rw [List.cons_append, plain (other (closed_cons closing))] at read
      rw [List.cons_append, plain (other closed), List.append_cancel_right (Option.some.inj read)]

/-- Characters of a string in front of a closing bracket. -/
theorem quotedUnit_swap {q : Char} (closing : closes y = true) (closed : Closed τ)
    (read : quotedUnit q (a ++ y :: ys) = some (b ++ y :: ys)) :
    quotedUnit q (a ++ τ) = some (b ++ τ) := by
  cases a with
  | nil => exact absurd rfl (ne_nil_of_read (quotedUnit_suffix read).2)
  | cons x a =>
    by_cases escape : x = '\\'
    · subst escape
      exact escaped_swap closing closed read
    · rw [List.cons_append, quotedUnit] at read ⊢
      · split at read
        next => cases read
        next inside => rw [if_neg inside, List.append_cancel_right (Option.some.inj read)]
      all_goals exact escape

/-- Characters of a template in front of a closing bracket. -/
theorem templateUnit_swap (closing : closes y = true) (closed : Closed τ)
    (read : templateUnit (a ++ y :: ys) = some (b ++ y :: ys)) :
    templateUnit (a ++ τ) = some (b ++ τ) := by
  cases a with
  | nil => exact absurd rfl (ne_nil_of_read (templateUnit_suffix read).2)
  | cons x a =>
    by_cases escape : x = '\\'
    · subst escape
      exact escaped_swap closing closed read
    · have plain {rest : List Char} (other : ¬['$', '\x7b'] <+: x :: rest) :
          templateUnit (x :: rest) = if x = '\x60' then none else some rest := by
        rw [templateUnit]
        · exact escape
        · rintro after rfl rfl
          exact other ⟨after, rfl⟩
      by_cases pair : ['$', '\x7b'] <+: x :: a
      · obtain ⟨rest, same⟩ := pair
        obtain ⟨rfl, rfl⟩ := List.cons.inj same
        cases read
      · have other {τ : List Char} (closed : Closed τ) : ¬['$', '\x7b'] <+: x :: (a ++ τ) :=
          mt (closed.prefix_append_iff (List.cons_ne_nil x a) (by decide)).1 pair
        rw [List.cons_append, plain (other (closed_cons closing))] at read
        rw [List.cons_append, plain (other closed)]
        split at read
        next => cases read
        next inside => rw [if_neg inside, List.append_cancel_right (Option.some.inj read)]

theorem unit_swap {open_ : List Frame} (closing : closes y = true) (closed : Closed τ)
    (read : unit open_ (a ++ y :: ys) = some (b ++ y :: ys)) :
    unit open_ (a ++ τ) = some (b ++ τ) := by
  rw [unit.eq_def] at read ⊢
  split at read
  · exact quotedUnit_swap closing closed read
  · exact quotedUnit_swap closing closed read
  · exact templateUnit_swap closing closed read
  · exact layoutUnit_swap closing closed read

theorem escaped_append_ne_none (rest : List Char) : escaped (a ++ y :: rest) ≠ none := by
  intro none
  rw [escaped.eq_def] at none
  split at none
  · cases none
  · cases none
  next same => simp at same

/-- What a frame holds ends at the same place, whatever stands behind a closing bracket. -/
theorem unit_none_swap {open_ : List Frame} {x : Char} (closing : closes y = true)
    (closed : Closed τ)
    (stuck : unit open_ (x :: (a ++ y :: ys)) = none)
    (turns : turn open_ (a ++ y :: ys) x ≠ none) : unit open_ (x :: (a ++ τ)) = none := by
  have quoted {q : Char} (stuck : quotedUnit q (x :: (a ++ y :: ys)) = none) :
      quotedUnit q (x :: (a ++ τ)) = none := by
    by_cases escape : x = '\\'
    · subst escape
      exact absurd stuck (escaped_append_ne_none ys)
    · rw [quotedUnit] at stuck ⊢
      · split at stuck
        next ends => rw [if_pos ends]
        next => cases stuck
      all_goals exact escape
  unfold unit at stuck ⊢
  split at stuck
  · exact quoted stuck
  · exact quoted stuck
  · by_cases escape : x = '\\'
    · subst escape
      exact absurd stuck (escaped_append_ne_none ys)
    · rw [templateUnit.eq_def] at stuck
      split at stuck
      next same => exact absurd (List.cons.inj same).1 escape
      next same =>
        obtain ⟨rfl, ahead⟩ := List.cons.inj same
        cases a with
        | nil => exact absurd (List.cons.inj ahead).1 (ne_of_closes closing rfl)
        | cons z a =>
          cases ahead
          rfl
      next same =>
        cases same
        split at stuck
        next ends =>
          subst ends
          rfl
        next => cases stuck
      next same => cases same
  next code =>
    by_cases comment : StartsComment (x :: a)
    · rcases comment with ⟨rest, same⟩ | ⟨rest, same⟩ <;>
        obtain ⟨rfl, rfl⟩ := List.cons.inj same
      · cases stuck
      · refine absurd ?_ turns
        unfold turn
        split <;> simp_all
    · have word {τ : List Char} (closed : Closed τ) : ¬StartsComment (x :: (a ++ τ)) :=
        mt (startsComment_append (a := x :: a) closed (List.cons_ne_nil x a)).1 comment
      rw [layoutUnit_of_word (word (closed_cons closing))] at stuck
      rw [layoutUnit_of_word (word closed)]
      split at stuck
      next => cases stuck
      next blank => rw [if_neg blank]

theorem turn_swap {open_ open' : List Frame} {x : Char} (closing : closes y = true)
    (closed : Closed τ)
    (turned : turn open_ (a ++ y :: ys) x = some (open', b ++ y :: ys)) :
    turn open_ (a ++ τ) x = some (open', b ++ τ) := by
  have same {outer : List Frame} {a : List Char}
      (there : some (outer, a ++ y :: ys) = some (open', b ++ y :: ys)) :
      some (outer, a ++ τ) = some (open', b ++ τ) := by
    obtain ⟨rfl, ahead⟩ := Prod.mk.inj (Option.some.inj there)
    rw [List.append_cancel_right ahead]
  have pair {p q : Char} (other : closes q = false) {τ : List Char} (closed : Closed τ) :
      [p, q] <+: x :: (a ++ τ) ↔ [p, q] <+: x :: a :=
    closed.prefix_append_iff (List.cons_ne_nil x a) (by simpa using other)
  unfold turn at turned ⊢
  split at turned
  iterate 2
    · split at turned
      next quote => rw [if_pos quote, same turned]
      next => cases turned
  · split at turned
    next quote => rw [if_pos quote, same turned]
    next quote =>
      split at turned
      next hole =>
        obtain ⟨rest, ahead⟩ := (pair rfl (closed_cons closing)).1 hole
        obtain ⟨rfl, rfl⟩ := List.cons.inj ahead
        rw [if_neg quote, if_pos ((pair rfl closed).2 ⟨rest, rfl⟩)]
        exact same turned
      next => cases turned
  · split at turned
    next => cases turned
    next inside =>
      rw [if_neg
        fun starts => inside ((pair rfl (closed_cons closing)).2 ((pair rfl closed).1 starts))]
      obtain ⟨outer, read, there⟩ := Option.map_eq_some_iff.1 turned
      rw [read]
      exact same (congrArg some there)

theorem step_swap {open_ open' : List Frame} (closing : closes y = true) (closed : Closed τ)
    (stepped : step (open_, a ++ y :: ys) = some (open', b ++ y :: ys)) :
    step (open_, a ++ τ) = some (open', b ++ τ) := by
  cases read : unit open_ (a ++ y :: ys) with
  | some rest =>
    rw [step_of_unit read] at stepped
    obtain ⟨rfl, rfl⟩ := Prod.mk.inj (Option.some.inj stepped)
    exact step_of_unit (unit_swap closing closed read)
  | none =>
    cases a with
    | nil => exact absurd rfl (ne_nil_of_read (step_suffix stepped).2)
    | cons x a =>
      have turned : turn open_ (a ++ y :: ys) x = some (open', b ++ y :: ys) :=
        (step_of_turn read).symm.trans stepped
      rw [List.cons_append, step_of_turn (unit_none_swap closing closed read (by simp [turned]))]
      exact turn_swap closing closed turned

/-- A path to a place in front of a closing bracket leads there as well if something else that
cannot go on stands in its place. -/
theorem Path.swap {open_ open' : List Frame} (closing : closes y = true) (closed : Closed τ)
    (path : Path (open_, a ++ y :: ys) (open', b ++ y :: ys)) :
    Path (open_, a ++ τ) (open', b ++ τ) := by
  generalize here : (open_, a ++ y :: ys) = s at path
  induction path using ReflTransGen.head_induction_on generalizing open_ a with
  | refl =>
    obtain ⟨rfl, ahead⟩ := Prod.mk.inj here
    rw [List.append_cancel_right ahead]
    exact .refl
  | @head s t stepped rest ih =>
    subst here
    obtain ⟨between, ahead⟩ := (show Path t _ from rest).suffix
    obtain ⟨open₁, cs⟩ := t
    have middle : cs = (between ++ b) ++ y :: ys := by
      rw [List.append_assoc]
      exact ahead.symm
    subst middle
    exact .head (step_swap closing closed stepped) (ih rfl)

end Swap

end Lexer

end Scriptlet.Grammar
