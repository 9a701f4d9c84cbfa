import Scriptlet.Proofs.Eval.Location
import Scriptlet.Proofs.Host.Permanence
import Scriptlet.Proofs.Layout.Accepted
import Scriptlet.Proofs.Tree.Jump

/-!
Where failing runs fail.

Main statement: a run that could be started and fails names a place in its text. Either the text is
refused, with an error about that text, or its program ends by a fault that has a place.
-/

namespace Scriptlet

open Construct (Formed Laid)

variable {text : String}

/-! ### Refused texts -/

theorem Span.inside_of_le {place : Nat} (le : place ≤ text.utf8ByteSize) :
    Span.Inside text ⟨place, place⟩ :=
  ⟨Nat.le_refl _, le⟩

/-- A return that a text is refused for stands in the text. -/
theorem firstFreeReturn?_inside {body : List Stmt} {span : Span} {low high : Nat}
    (laid : Laid text low (body.map .stmt) high) (found : firstFreeReturn? body = some span) :
    span.Inside text := by
  obtain ⟨first, ⟨⟨s, member, free⟩, -⟩, rfl⟩ := Stmt.firstFreeReturn?_first laid found
  have jump := free.laid (laid.formed _ (List.mem_map_of_mem member))
  exact (jump.formed _ (List.mem_singleton_self _)).within.inside

theorem parseProgram_error {options : ParseOptions} {e : ParseError}
    (refused : parseProgram text options = .error e) : e.source = text ∧ e.span.Inside text := by
  have sound := Grammar.RuleSet.parse_sound Grammar.script .program text
  unfold parseProgram at refused
  split at refused
  · rename_i n _ _ parsed
    rw [parsed] at sound
    have placed := Tree.statements_placed (sound.1.lie n (List.mem_singleton_self n))
    split at refused
    · cases refused
      exact ⟨rfl, placed.error _ ‹_›⟩
    · rename_i body built
      split at refused
      · rename_i span found
        cases refused
        refine ⟨rfl, firstFreeReturn?_inside (placed.ok body built) ?_⟩
        split at found
        · cases found
        · exact found
      · cases refused
  · rename_i parsed
    rw [parsed] at sound
    cases refused
    exact ⟨rfl, Span.inside_of_le sound.2⟩
  · rename_i parsed
    rw [parsed] at sound
    cases refused
    exact ⟨rfl, Span.inside_of_le sound⟩
  · cases refused
    exact ⟨rfl, Span.inside_of_le (Nat.zero_le _)⟩

/-! ### The functions that a run starts with -/

/-- A computation that makes no closures but those of some functions. -/
structure Making {α : Type} (made : Function → Prop) (m : StateM Heap α) : Prop where
  intro ::
  run : ∀ h fn η realm, (m h).2.Closure fn η realm → h.Closure fn η realm ∨ made fn

namespace Making

variable {α β : Type} {made : Function → Prop}

theorem of_lending {m : StateM Heap α} (lending : Lending m) : Making made m :=
  ⟨fun h fn η realm there => .inl (lending.run h fn η realm there)⟩

theorem pure (a : α) : Making made (Pure.pure a : StateM Heap α) :=
  of_lending (.pure a)

theorem bind {m : StateM Heap α} {f : α → StateM Heap β} (first : Making made m)
    (then_ : ∀ a, Making made (f a)) : Making made (m >>= f) := by
  constructor
  intro h fn η realm there
  rcases (then_ (m h).1).run (m h).2 fn η realm there with there | made
  · exact first.run h fn η realm there
  · exact .inr made

theorem newFunction {f : FunctionObject} {fn : Function} {η : Handle} {realm : Nat}
    (callable : f.callable = .closure fn η realm) (here : made fn) :
    Making made (modifyGet (·.newFunction f) : StateM Heap FunctionRef) := by
  constructor
  intro h fn' η' realm' there
  rcases Heap.closure_newFunction.1 there with there | same
  · exact .inl there
  · rw [callable] at same
    cases same
    exact .inr here

end Making

/-- A function of the host, which does nothing. -/
def Function.Idle (fn : Function) : Prop :=
  ∃ name, fn = Blueprint.emptyFunction name

namespace Blueprint

mutual

theorem making_build (b : Blueprint) : Making Function.Idle b.build := by
  match b with
  | .undefined | .null | .boolean _ | .number _ | .string _ | .existing _ => exact .pure _
  | .array items =>
    exact .bind (making_buildItems items) fun _ =>
      .bind (.of_lending (.newArray _)) fun _ => .pure _
  | .object entries =>
    exact .bind (making_buildEntries entries) fun _ =>
      .bind (.of_lending (.newObject _)) fun _ => .pure _
  | .heir entries parent =>
    apply Making.bind (making_buildEntries entries)
    intro _
    exact .bind (making_build parent) fun _ => .bind (.of_lending (.newObject _)) fun _ => .pure _
  | .lent name f => exact .bind (.of_lending (.newNative rfl)) fun _ => .pure _
  | .closure name scope entries =>
    apply Making.bind (making_buildEntries entries)
    intro _
    exact .bind (.newFunction rfl ⟨name, rfl⟩) fun _ => .pure _

theorem making_buildItems (items : List Blueprint) : Making Function.Idle (buildItems items) := by
  match items with
  | [] => exact .pure _
  | b :: rest =>
    exact .bind (making_build b) fun _ => .bind (making_buildItems rest) fun _ => .pure _

theorem making_buildEntries (entries : List (String × Blueprint)) :
    Making Function.Idle (buildEntries entries) := by
  match entries with
  | [] => exact .pure _
  | (k, b) :: rest =>
    exact .bind (making_build b) fun _ => .bind (making_buildEntries rest) fun _ => .pure _

end

end Blueprint

namespace Session

theorem making_prepare (o : Options) : Making Function.Idle (prepare o) := by
  have more := Blueprint.making_buildEntries o.globals
  have globals : Making Function.Idle (globals o) := by
    unfold globals
    split
    · exact .bind (.of_lending Globals.lending_standard) fun _ => .bind more fun _ => .pure _
    · exact .bind (.pure _) fun _ => .bind more fun _ => .pure _
  exact .bind globals fun _ => .bind (Blueprint.making_build _) fun _ =>
    .bind (.of_lending Methods.lending_fresh) fun _ => .pure _

end Session

/-- The functions of a host have no text, and count as standing at the start of any. -/
theorem Function.Idle.formed {fn : Function} (idle : fn.Idle) :
    (Construct.function fn).Formed text := by
  obtain ⟨name, rfl⟩ := idle
  have start : Span.Within text default :=
    ⟨Nat.le_refl _, String.Pos.Raw.isValid_zero, String.Pos.Raw.isValid_zero⟩
  have body : (Construct.block ⟨[], default⟩).Formed text :=
    .of_row start rfl trivial rfl (.nil (Nat.le_refl _))
  refine .of_row start rfl .nil rfl ?_
  have name : (Construct.name ⟨name, default⟩).Formed text := .name start
  exact name.laid.append (Nat.le_refl _) body.laid

/-- The only functions with a body that a run starts with are those of the host. -/
theorem World.idle_of_openSession {o : Options} {host : Value} {w : World}
    (opened : World.openSession {} o = (host, none, w)) {fn : Function} {η : Handle} {realm : Nat}
    (there : w.heap.Closure fn η realm) : fn.Idle := by
  obtain ⟨globals, given, methods, heap, made, ⟨c, same⟩ | ⟨session, -, -, -, same⟩⟩ :=
    World.openSession_cases {} o
  · rw [same] at opened
    cases opened
  · rw [same] at opened
    cases opened
    have idle := (Session.making_prepare o).run {} fn η realm
    rw [made] at idle
    rcases idle there with ⟨f, member, -⟩ | idle
    · simp at member
    · exact idle

/-! ### Failing runs -/

/-- A source text fails because it is refused, or because its program does. -/
theorem Eval.source_fault {fuel : Nat} {options : ParseOptions} {s t : State} {f : Fault}
    (failed : Eval.source fuel options text s = .fault f t) :
    (∃ e, parseProgram text options = .error e ∧ f.cause = .parse e) ∨
      ∃ p, parseProgram text options = .ok p ∧ Eval.program fuel p s = .fault f t := by
  unfold source at failed
  cases parsed : parseProgram text options with
  | error e =>
    simp only [parsed] at failed
    cases failed
    exact .inl ⟨e, rfl, rfl⟩
  | ok p =>
    simp only [parsed] at failed
    exact .inr ⟨p, rfl, failed⟩

/-- The two ways in which a run can fail: at a place in the text that is refused, or in a running
program at a place in its text. -/
def Fault.Located (text : String) (f : Fault) : Prop :=
  (∃ e, f.cause = .parse e ∧ e.source = text ∧ e.span.Inside text) ∨
    ((∀ e, f.cause ≠ .parse e) ∧ ∃ span, f.span = some span ∧ span.Inside text)

theorem Eval.source_located {fuel : Nat} {options : ParseOptions} {s t : State} {f : Fault}
    (idle : ∀ {fn η realm}, s.heap.Closure fn η realm → fn.Idle)
    (failed : Eval.source fuel options text s = .fault f t) : f.Located text := by
  rcases Eval.source_fault failed with ⟨e, refused, cause⟩ | ⟨p, accepted, failed⟩
  · exact .inl ⟨e, cause, parseProgram_error refused⟩
  · exact .inr (Eval.program_fault (parseProgram_formed accepted)
      (fun _ _ _ there => (idle there).formed) failed)

/-- A run that was started and fails names a place in its text. -/
theorem failures_located {fuel : Nat} {o : Options} {f : Fault}
    (opened : (World.openSession {} o).2.1 = none)
    (failed : (run fuel o text).1 = .failed f) : f.Located text := by
  unfold run at failed
  cases started : World.openSession {} o with
  | mk given rest =>
    obtain ⟨cause, w⟩ := rest
    rw [started] at opened
    obtain rfl : cause = none := opened
    simp only [started] at failed
    obtain ⟨s, t, there, failed⟩ := World.within_failed failed
    obtain ⟨tidy, own⟩ := World.host_of_start started there
    rcases Eval.bind_fault failed with failed | ⟨_, u, done, failed⟩
    · rcases Eval.bind_fault failed with failed | ⟨_, _, _, failed⟩
      · obtain ⟨_, -, rfl⟩ := World.state?_eq there
        exact Eval.source_located (World.idle_of_openSession started) failed
      · cases failed
    · -- after the program, the host's value is still there to be answered
      obtain ⟨v, _, executed, rest⟩ := Eval.bind_ok done
      cases rest
      obtain ⟨p, -, ran⟩ := Eval.source_ok executed
      obtain ⟨after, b, left, -⟩ := Task.host_of_run tidy own ran
      rw [Eval.rootValue_own after left] at failed
      cases failed

/-- The fault that a run ends by. -/
def Ending.fault? {α : Type} : Ending α → Option Fault
  | .failed f => some f
  | .done _ | .exhausted => none

theorem Ending.eq_failed {α : Type} {e : Ending α} {f : Fault} (failed : e.fault? = some f) :
    e = .failed f := by
  cases e with
  | failed g =>
    cases failed
    rfl
  | done | exhausted => cases failed

/-- A name that is not bound, in a method that an addition calls. -/
theorem failures_located_nested :
    ∃ f, (run 30 { standard := false } "({ valueOf() { return é } }) + 1").1 = .failed f ∧
      f.Located "({ valueOf() { return é } }) + 1" ∧ f.span = some ⟨22, 24⟩ := by
  have fails : (run 30 { standard := false } "({ valueOf() { return é } }) + 1").1.fault?.any
      (fun f => f.span == some ⟨22, 24⟩) = true := by
    decide +kernel
  obtain ⟨f, failed, place⟩ := (Option.any_eq_true ..).1 fails
  have failed := Ending.eq_failed failed
  exact ⟨f, failed, failures_located (by decide +kernel) failed, by simpa using place⟩

end Scriptlet
