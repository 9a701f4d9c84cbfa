import Scriptlet.Proofs.Host.Prototype
import Scriptlet.Proofs.Value.Enumeration

/-!
The keys of objects in the worlds of hosts.

Main statement: `keys_agree`. Chains of prototypes are finite there, so what is true of finite ways
up is true of every object.
-/

namespace Scriptlet

/-- Whatever hosts and scripts do, each object of each state that an evaluation goes through is
visited at the keys that it has and can be read at: its own in their order, and then those of the
objects that it inherits from, the nearest first. What is read is held by the nearest object that
has the key. -/
theorem keys_agree {w w' : World} {i fuel : Nat} {s t : State} {α : Type} {task : Task α}
    (intact : w.Intact) (uses : w.Uses w') (there : w'.state? i = some s)
    (given : Known s.heap.existing task) (passes : task.Passes fuel s t) :
    ∀ r ∈ t.heap.existing, ∃ path, t.KeysAgree r path := by
  have after := (intact.uses uses).passes there given passes
  intro r exists_
  obtain ⟨path, finite⟩ := after.heap.finite r exists_
  exact ⟨path, finite.keysAgree (after.heap.inside finite exists_)⟩

/-- The errors of a standard constructor have a name of their own, and inherit what all errors
have. -/
theorem keys_agree_errors :
    ∃ s, (World.openSession {} {}).2.2.state? 0 = some s ∧
      (Task.expr (.null default) Arena.root).Passes 1 s s ∧ ⟨1⟩ ∈ s.heap.existing ∧
      s.heap.enumerableKeys (.object ⟨1⟩) = ["name", "message", "toString"] ∧
      ∃ path, s.KeysAgree ⟨1⟩ path := by
  let w := (World.openSession {} {}).2.2
  have opened : (w.state? 0).any (fun s => 1 < s.heap.objects.size &&
      s.heap.enumerableKeys (.object ⟨1⟩) == ["name", "message", "toString"]) = true := by
    decide +kernel
  obtain ⟨s, there, checked⟩ := (Option.any_eq_true ..).1 opened
  rw [Bool.and_eq_true, decide_eq_true_eq, beq_iff_eq] at checked
  have uses : World.Uses {} w := .single (.openSession _ ⟨by rintro r (⟨_, ⟨⟩, _⟩ | ⟨_, ⟨⟩, _⟩)⟩)
  have passes : (Task.expr (.null default) Arena.root).Passes 1 s s :=
    Task.passes_end (.inl ⟨_, rfl⟩)
  exact ⟨s, there, passes, checked.1, checked.2,
    keys_agree .empty uses there ⟨Set.empty_subset _⟩ passes ⟨1⟩ checked.1⟩

end Scriptlet
