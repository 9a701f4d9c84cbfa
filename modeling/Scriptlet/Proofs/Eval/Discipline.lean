import Scriptlet.Proofs.Eval.Order
import Scriptlet.Proofs.Eval.Whole

/-!
Scopes and calls are left as they were found.

Main statement: an evaluation, however it ends, leaves the running scopes and the depth of calls as
they were, and all through it the scopes in use stand.
-/

namespace Scriptlet

/-- The discipline of scopes and calls, during an evaluation that found the scopes of `base`. -/
def discipline (base : Arena) : Contract where
  sound s := s.Orderly ∧ base.Grown s.scopes
  live env s := (s.scopes.record env).phase = .running
  kept := State.Settled
  fine _ := True
  stops _ := False
  cut _ := False
  raised _ := True

variable {base : Arena}

instance : (discipline base).Complete :=
  ⟨fun _ => id, fun _ => id, id⟩

instance : (discipline base).Indifferent :=
  ⟨fun _ => rfl⟩

namespace Discipline

variable {s t : State} {env : ScopeId} {η : Handle}

/-- Whatever settles leaves the scopes there that the evaluation found. -/
theorem sound_settled (sound : (discipline base).sound s) (settles : t.Orderly ∧ s.Settled t) :
    (discipline base).sound t ∧ (discipline base).kept s t :=
  ⟨⟨settles.1, sound.2.trans settles.2.grown⟩, settles.2⟩

/-- A scope that is opened runs, and all others that run go on. -/
theorem sound_opened {kind : ScopeKind} (sound : (discipline base).sound s) (orderly : t.Orderly)
    (scopes : t.scopes = (s.scopes.openUnder kind env η).2) :
    (discipline base).sound t ∧ (discipline base).live s.scopes.nextSlot t := by
  have grown : s.scopes.Grown t.scopes := scopes ▸ .openUnder sound.1.tidy kind env η
  refine ⟨⟨orderly, sound.2.trans grown⟩, ?_⟩
  show (t.scopes.record s.scopes.nextSlot).phase = .running
  rw [scopes, Arena.record_openUnder sound.1.tidy, if_pos rfl]
  rfl

end Discipline

open Discipline

instance : (discipline base).Lawful where
  refl := State.Settled.refl
  trans _ _ _ := State.Settled.trans
  live_kept env s t live kept := kept.grown.running live
  live_root s sound := sound.1.tidy.root
  known_kept _ _ _ := subset_rfl
  known_stored _ _ := inferInstance
  known_there _ _ _ := trivial
  child _ _ _ _ _ := trivial
  assigned _ absurd := absurd.elim
  heap _ _ sound step _ := sound_settled sound (sound.1.heap step.sameClosures)
  console _ lines sound := sound_settled sound (sound.1.console lines)
  edit _ _ sound edit := sound_settled sound (sound.1.edit edit)
  closure _ name fn _ sound live _ := sound_settled sound (sound.1.closure live name fn)
  opened s env sound live := by
    obtain ⟨η, handle, alive⟩ := State.Orderly.running_handle live
    have same := State.Orderly.opened_eq handle alive .block
    have scopes : (s.opened .block env).scopes = (s.scopes.openUnder .block env η).2 := by rw [same]
    have depth : s.depth = (s.scopes.openUnder .block env η).2.openCalls.length :=
      sound.1.depth.trans (Arena.length_openCalls_block sound.1.tidy env η).symm
    refine sound_opened sound ?_ scopes
    rw [same]
    exact sound.1.opened handle alive rfl rfl rfl rfl depth sound.1.shallow
  closed s env t u sound live sound' kept closed := by
    obtain ⟨η, handle, alive⟩ := State.Orderly.running_handle live
    have same := State.Orderly.opened_eq handle alive .block
    refine sound_settled sound (sound.1.closed (o := s.opened .block env)
      (congrArg State.scopes same) rfl rfl sound'.1 kept closed ?_)
    have depth : u.depth = s.depth := by rw [State.closed_eq closed]; exact kept.depth
    rw [← depth]
  called s r fn η sound calls := by
    obtain ⟨handle, alive⟩ := sound.1.closure_handle calls
    have same : s.called η.scope = { s with
        depth := s.depth + 1
        scopes := (s.scopes.openUnder .function η.scope η).2 } :=
      State.Orderly.opened_eq (s := { s with depth := s.depth + 1 }) handle alive .function
    have scopes : (s.called η.scope).scopes = (s.scopes.openUnder .function η.scope η).2 := by
      rw [same]
    have depth : s.depth + 1 = (s.scopes.openUnder .function η.scope η).2.openCalls.length := by
      rw [sound.1.depth]
      exact (Arena.length_openCalls_function sound.1.tidy η.scope η).symm
    refine ⟨trivial, sound_opened sound ?_ scopes⟩
    rw [same]
    exact sound.1.opened handle alive rfl rfl rfl rfl depth calls.shallow
  returned s r fn η t u sound calls sound' kept closed := by
    obtain ⟨handle, alive⟩ := sound.1.closure_handle calls
    have same :=
      State.Orderly.opened_eq (s := { s with depth := s.depth + 1 }) handle alive .function
    refine sound_settled sound
      (sound.1.closed (o := s.called η.scope)
        (congrArg State.scopes same) rfl rfl sound'.1 kept closed ?_)
    have depth : u.depth = s.depth + 1 := by rw [State.closed_eq closed]; exact kept.depth
    rw [State.returned, depth, Nat.add_sub_cancel]
  scripted _ _ := trivial
  located _ _ _ _ := trivial
  stuck _ _ _ := .inr fun _ => trivial

end Scriptlet
