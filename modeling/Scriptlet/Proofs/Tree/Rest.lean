import Scriptlet.Tree.Binding
import Scriptlet.Tree.Target

/-!
What may come after a rest.

An array literal that is read as a pattern, and a list of parameters, keep nothing after a rest. The
check of an array pattern that declares names does not see elisions, so these may come after its
rest.
-/

namespace Scriptlet.Tree

variable {α β : Type}

theorem bind_ok {m : Build α} {f : α → Build β} {b : β} :
    m >>= f = .ok b ↔ ∃ a, m = .ok a ∧ f a = .ok b := by
  cases m with
  | error e => exact ⟨nofun, fun ⟨_, made, _⟩ => by cases made⟩
  | ok a => exact ⟨fun done => ⟨a, rfl, done⟩, fun ⟨_, made, done⟩ => by cases made; exact done⟩

theorem map_ok {m : Build α} {f : α → β} {b : β} :
    m.map f = .ok b ↔ ∃ a, m = .ok a ∧ f a = b := by
  cases m with
  | error e => exact ⟨nofun, fun ⟨_, made, _⟩ => by cases made⟩
  | ok a =>
    constructor
    · intro done
      cases done
      exact ⟨a, rfl, rfl⟩
    · rintro ⟨_, made, rfl⟩
      cases made
      rfl

/-! ### Literals read as patterns -/

theorem isRest_toPattern {e : Expr} {p : Pattern} (made : toPattern e = .ok p) :
    isRest p = false := by
  unfold toPattern at made
  split at made
  · cases made
    rfl
  · cases made
    rfl
  · obtain ⟨ps, _, rfl⟩ := map_ok.1 made
    rfl
  · obtain ⟨ps, _, rfl⟩ := map_ok.1 made
    rfl
  · cases made
    rfl
  · cases made

/-- Nothing comes after a spread that is read as a pattern. -/
theorem itemPatterns_rests {items : List Item} {ps : List (Option Pattern)}
    (made : itemPatterns items = .ok ps) : ps.Pairwise fun p _ => p.any isRest = false := by
  induction items generalizing ps with
  | nil =>
    rw [itemPatterns] at made
    cases made
    exact .nil
  | cons item rest ih =>
    cases item with
    | hole =>
      rw [itemPatterns] at made
      obtain ⟨qs, others, done⟩ := bind_ok.1 made
      cases done
      exact .cons (fun _ _ => rfl) (ih others)
    | one e =>
      rw [itemPatterns] at made
      obtain ⟨p, first, made⟩ := bind_ok.1 made
      obtain ⟨qs, others, done⟩ := bind_ok.1 made
      cases done
      exact .cons (fun _ _ => isRest_toPattern first) (ih others)
    | spread e =>
      rw [itemPatterns] at made
      split at made
      · obtain ⟨p, first, done⟩ := bind_ok.1 made
        cases done
        exact List.pairwise_singleton ..
      · cases made

/-! ### Patterns that declare names -/

theorem checkRestLast_ok {ps : List Pattern} :
    checkRestLast ps = .ok () ↔ ps.Pairwise fun p _ => isRest p = false := by
  induction ps with
  | nil => simp [checkRestLast]
  | cons p rest ih =>
    cases rest with
    | nil => simp [checkRestLast]
    | cons q rest =>
      rw [checkRestLast, List.pairwise_cons, ← ih]
      · cases isRest p with
        | true =>
          refine ⟨fun failed => ?_, fun apart => ?_⟩
          · cases failed
          · cases apart.1 q List.mem_cons_self
        | false => simp
      · simp

/-- The check of an array pattern admits elisions after a rest, and nothing else. -/
theorem rests_filterMap {elements : List (Option Pattern)} :
    ((elements.filterMap id).Pairwise fun p _ => isRest p = false) ↔
      elements.Pairwise fun p q => p.any isRest = true → q = none := by
  rw [List.pairwise_filterMap]
  refine List.Pairwise.iff fun p q => ?_
  cases p with
  | none => simp
  | some p => cases q <;> simp

end Scriptlet.Tree
