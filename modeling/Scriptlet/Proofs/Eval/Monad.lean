import Scriptlet.Eval.Monad

/-!
Computations one after the other.

A computation goes on with its value, and stops at a fault or for lack of fuel.
-/

namespace Scriptlet.Eval

variable {α β : Type} {m : Eval α} {f : α → Eval β} {s t : State}

instance : LawfulMonad Eval :=
  LawfulMonad.mk' Eval
    (fun m => by
      funext s; change Eval.bind m Eval.pure s = m s; unfold Eval.bind; cases m s <;> rfl)
    (fun _ _ => rfl)
    (fun m f g => by
      funext s
      change Eval.bind (Eval.bind m f) g s = Eval.bind m (fun a => Eval.bind (f a) g) s
      unfold Eval.bind
      cases m s <;> rfl)

theorem bind_ok {b : β} (done : (m >>= f) s = .ok b t) :
    ∃ a u, m s = .ok a u ∧ f a u = .ok b t := by
  change Eval.bind m f s = .ok b t at done
  unfold Eval.bind at done
  split at done
  · exact ⟨_, _, ‹_›, done⟩
  · cases done
  · cases done

theorem bind_fault {e : Fault} (failed : (m >>= f) s = .fault e t) :
    m s = .fault e t ∨ ∃ a u, m s = .ok a u ∧ f a u = .fault e t := by
  change Eval.bind m f s = .fault e t at failed
  unfold Eval.bind at failed
  split at failed
  · exact .inr ⟨_, _, ‹_›, failed⟩
  · cases failed
    exact .inl ‹_›
  · cases failed

theorem bind_of_ok {a : α} (done : m s = .ok a t) : (m >>= f) s = f a t := by
  change Eval.bind m f s = f a t
  unfold Eval.bind
  rw [done]

theorem bind_of_fault {e : Fault} (failed : m s = .fault e t) : (m >>= f) s = .fault e t := by
  change Eval.bind m f s = .fault e t
  unfold Eval.bind
  rw [failed]

theorem bind_of_exhausted (stopped : m s = .exhausted t) : (m >>= f) s = .exhausted t := by
  change Eval.bind m f s = .exhausted t
  unfold Eval.bind
  rw [stopped]

theorem bind_gets (read : State → α) (f : α → Eval β) (s : State) :
    (gets read >>= f) s = f (read s) s :=
  rfl

/-- What comes after a computation matters only where it has a value. -/
theorem bind_congr_of_ok {g : α → Eval β} (same : ∀ a u, m s = .ok a u → f a u = g a u) :
    (m >>= f) s = (m >>= g) s := by
  cases ran : m s with
  | ok a u =>
    rw [bind_of_ok ran, bind_of_ok ran]
    exact same a u ran
  | fault e u => rw [bind_of_fault ran, bind_of_fault ran]
  | exhausted u => rw [bind_of_exhausted ran, bind_of_exhausted ran]

theorem discard_bind (m : Eval α) (next : Eval β) :
    (discard m >>= fun _ => next) = m >>= fun _ => next := by
  rw [discard, map_const]
  exact bind_map_left ..

theorem located_ok {a : α} {span : Span} (done : m s = .ok a t) : located span m s = .ok a t := by
  simp only [located, done]

theorem located_fault {e : Fault} {span : Span} (failed : m s = .fault e t) :
    located span m s = .fault (e.located span) t := by
  simp only [located, failed]

/-! ### Outcomes of no value -/

theorem ok_or_stops (o : Outcome Unit) : (∃ u, o = .ok () u) ∨ ∀ u, o ≠ .ok () u := by
  cases o with
  | ok _ u => exact .inl ⟨u, rfl⟩
  | fault | exhausted => exact .inr nofun

theorem bind_of_stops {m : Eval Unit} {f : Unit → Eval Unit} {o : Outcome Unit} (ran : m s = o)
    (stops : ∀ u, o ≠ .ok () u) : (m >>= f) s = o := by
  cases o with
  | ok a u => exact absurd rfl (stops u)
  | fault f u => exact bind_of_fault ran
  | exhausted u => exact bind_of_exhausted ran

end Scriptlet.Eval
