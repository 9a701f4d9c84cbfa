import Scriptlet.Proofs.Eval.Whole

/-!
No array leaves the heap.
-/

namespace Scriptlet

open Eval

theorem Heap.Step.arrays_le {known : Heap → Knowledge} {h h' : Heap} (step : h.Step known h') :
    h.arrays.size ≤ h'.arrays.size := by
  cases step with
  | newArray => simp [Heap.newArray]
  | setArray => simp [Heap.modifyArray]
  | newObject | newNative | setObject | setFunction => exact Nat.le_refl _

/-- There are never fewer arrays than before. -/
def growing : Contract where
  sound _ := True
  live _ _ := True
  kept s t := s.heap.arrays.size ≤ t.heap.arrays.size
  fine _ := True
  stops _ := False
  cut _ := False
  raised _ := True

instance : growing.Complete :=
  ⟨fun _ => id, fun _ => id, id⟩

instance : growing.Indifferent :=
  ⟨fun _ => rfl⟩

instance : growing.Lawful where
  refl _ := Nat.le_refl _
  trans _ _ _ := Nat.le_trans
  live_kept _ _ _ _ _ := trivial
  live_root _ _ := trivial
  known_kept _ _ _ := subset_rfl
  known_stored _ _ := inferInstance
  known_there _ _ _ := trivial
  child _ _ _ _ _ := trivial
  assigned _ absurd := absurd.elim
  heap _ _ _ step _ := ⟨trivial, step.arrays_le⟩
  console _ _ _ := ⟨trivial, Nat.le_refl _⟩
  edit _ _ _ _ := ⟨trivial, Nat.le_refl _⟩
  closure _ _ _ _ _ _ _ := ⟨trivial, Nat.le_refl _⟩
  opened _ _ _ _ := ⟨trivial, trivial⟩
  closed _ _ _ _ _ _ _ kept closed :=
    ⟨trivial, Nat.le_trans kept (by rw [State.heap_closed closed])⟩
  called _ _ _ _ _ _ := ⟨trivial, trivial, trivial⟩
  returned _ _ _ _ _ _ _ _ _ kept closed :=
    ⟨trivial, Nat.le_trans kept (by rw [State.returned, State.heap_closed closed])⟩
  scripted _ _ := trivial
  located _ _ _ _ := trivial
  stuck _ _ _ := .inr fun _ => trivial

/-- A comparison takes no array from the heap. -/
theorem arrays_le_of_comesBefore {fuel : Nat} {comparator : Option Value} {a b : Value}
    {first : Bool}
    {s t : State}
    (compared : Native.comesBefore (recursion fuel) comparator a b s = .ok first t) :
    s.heap.arrays.size ≤ t.heap.arrays.size := by
  have sat : growing.Sat Arena.root Set.univ _ _ :=
    Contract.sat_comesBefore (Contract.fits_recursion fuel) comparator a b
  exact ((sat.ends trivial trivial subset_rfl).endsIn (.inl ⟨first, compared⟩)).2

end Scriptlet
