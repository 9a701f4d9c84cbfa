import Scriptlet.Host.Check
import Scriptlet.Proofs.Value.Walk

/-!
Conversions of values on heaps with shared and cyclic containers.

The conversions to JSON and to text and the inspection are walks over containers, so they end on
every heap. That to JSON fails exactly on values that lead to a cycle.
-/

namespace Scriptlet

namespace Heap

open Relation

variable {h : Heap} {c : Container} {path : List Container} {v w : Value}

/-- The container that a value is, unless it is on the path. -/
def newContainer? (path : List Container) (v : Value) : Option Container :=
  v.container?.filter (· ∉ path)

theorem newContainer?_eq_some :
    newContainer? path v = some c ↔ v.container? = some c ∧ c ∉ path := by
  simp [newContainer?, Option.filter_eq_some_iff]

theorem newContainer?_eq_none (is : v.container? = some c) (known : c ∈ path) :
    newContainer? path v = none := by
  simp [newContainer?, is, known]

/-! ### JSON -/

/-- The JSON of a value without regard to what it holds: a container that is on the path has
none. -/
def jsonAnswer (v : Value) : Except Circular (Option Json) :=
  match v with
  | .undefined | .function _ => .ok none
  | .null => .ok (some .null)
  | .boolean b => .ok (some (.bool b))
  | .number x => .ok (some (.ofNumber x))
  | .string s => .ok (some (.str s))
  | .array _ | .object _ => .error .circular

/-- The JSON of a property, with its key. -/
def jsonMember (made : Value → Except Circular (Option Json)) (e : String × Value) :
    Except Circular (Option (String × Json)) :=
  return (← made e.2).map (e.1, ·)

/-- The JSON of a container: of all its elements in turn, or of all its properties. -/
def jsonGather (h : Heap) (c : Container) (made : Value → Except Circular (Option Json)) :
    Except Circular (Option Json) :=
  match c with
  | .array r => do
    let items ← (h.elements r).toList.mapM made
    return some (.arr (items.map (·.getD .null)))
  | .object r => do
    let members ← (h.object r).props.entries.mapM (jsonMember made)
    return some (.obj (members.filterMap id))

section MapM

variable {α β : Type} {xs : List α} {f g : α → Except Circular β}

theorem mapM_congr (same : ∀ x ∈ xs, f x = g x) : xs.mapM f = xs.mapM g := by
  induction xs with
  | nil => rfl
  | cons x xs ih =>
    rw [List.mapM_cons, List.mapM_cons, same x List.mem_cons_self,
      ih fun y member => same y (List.mem_cons_of_mem x member)]

/-- Converting one after the other fails if and only if one of them fails. -/
theorem mapM_eq_error_iff : xs.mapM f = .error .circular ↔ ∃ x ∈ xs, f x = .error .circular := by
  induction xs with
  | nil => simp [pure, Except.pure]
  | cons x xs ih =>
    rw [List.mapM_cons, List.exists_mem_cons_iff, ← ih]
    cases f x with
    | error e => simp [bind, Except.bind]
    | ok y => cases xs.mapM f <;> simp [bind, Except.bind, pure, Except.pure]

end MapM

theorem jsonGather_congr {f g : Value → Except Circular (Option Json)}
    (same : ∀ w ∈ h.held c, f w = g w) : h.jsonGather c f = h.jsonGather c g := by
  cases c with
  | array r =>
    have items := mapM_congr same
    rw [held] at items
    simp only [jsonGather, items]
  | object r =>
    have members : (h.object r).props.entries.mapM (jsonMember f) =
        (h.object r).props.entries.mapM (jsonMember g) := by
      refine mapM_congr fun e member => ?_
      rw [jsonMember, same _ (List.mem_map_of_mem member), jsonMember]
    simp only [jsonGather, members]

/-- A container has no JSON if and only if something in it has none. -/
theorem jsonGather_eq_error_iff {made : Value → Except Circular (Option Json)} :
    h.jsonGather c made = .error .circular ↔ ∃ w ∈ h.held c, made w = .error .circular := by
  cases c with
  | array r =>
    rw [held, ← mapM_eq_error_iff, jsonGather]
    cases (h.elements r).toList.mapM made <;> simp [bind, Except.bind, pure, Except.pure]
  | object r =>
    have each (e : String × Value) :
        jsonMember made e = .error .circular ↔ made e.2 = .error .circular := by
      rw [jsonMember]
      cases made e.2 <;> simp [bind, Except.bind, pure, Except.pure]
    simp only [held, List.mem_map, exists_exists_and_eq_and]
    rw [← exists_congr fun e => and_congr_right fun _ => each e, ← mapM_eq_error_iff, jsonGather]
    cases (h.object r).props.entries.mapM (jsonMember made) <;>
      simp [bind, Except.bind, pure, Except.pure]

/-- The conversion to JSON: it enters every container that is not on the path. -/
def jsonWalk (h : Heap) : Walk h (Except Circular (Option Json)) where
  entered := newContainer?
  answer _ := jsonAnswer
  gather := h.jsonGather
  container_of_entered entered := (newContainer?_eq_some.1 entered).1
  new_of_entered entered := (newContainer?_eq_some.1 entered).2
  span := h.containers
  mem_span _ := mem_containers
  gather_congr := jsonGather_congr

theorem jsonWithin_succ (h : Heap) (fuel : Nat) (path : List Container) (v : Value) :
    h.jsonWithin (fuel + 1) path v = h.jsonWalk.step (h.jsonWithin fuel) path v := by
  cases is : v.container? with
  | none => cases v <;> cases is <;> rfl
  | some c =>
    by_cases known : c ∈ path
    · have entered : h.jsonWalk.entered path v = none := newContainer?_eq_none is known
      rw [Walk.step_of_none entered]
      cases v <;> cases is <;> simp [jsonWithin, known, jsonWalk, jsonAnswer]
    · have entered : h.jsonWalk.entered path v = some c := newContainer?_eq_some.2 ⟨is, known⟩
      rw [Walk.step_of_some entered]
      cases v <;> cases is <;>
        simp only [jsonWithin, List.contains_iff_mem, known, if_false] <;> rfl

/-- The conversion to JSON ends. -/
theorem run_jsonWalk {out : Except Circular (Option Json)} :
    h.jsonWalk.Run [] v out ↔ out = h.json? v := by
  refine Walk.run_iff_of_step h.jsonWithin h.jsonWithin_succ ?_
  simp [Walk.room_nil, jsonWalk, containers, arrayContainers]

/-! ### Text -/

/-- The arrays of a path. -/
def arraysOf (path : List Container) : List ArrayRef :=
  path.filterMap fun
    | .array r => some r
    | .object _ => none

/-- The conversion to text: it enters arrays only. -/
def textWalk (h : Heap) : Walk h String where
  entered path v :=
    match v with
    | .array _ => newContainer? path v
    | _ => none
  answer _ v :=
    match v with
    | .undefined => "undefined"
    | .null => "null"
    | .boolean b => if b then "true" else "false"
    | .number x => Number.text x
    | .string s => s
    | .array _ => ""
    | .object _ => "[object Object]"
    | .function r =>
      "function " ++ ((h.function? r).map (·.name)).getD "" ++ "() \x7b [native code] \x7d"
  gather c made :=
    String.intercalate "," ((h.held c).map fun w => if w.isNullish then "" else made w)
  container_of_entered {path v c} entered := by
    cases v with
    | array r => exact (newContainer?_eq_some.1 entered).1
    | _ => cases entered
  new_of_entered {path v c} entered := by
    cases v with
    | array r => exact (newContainer?_eq_some.1 entered).2
    | _ => cases entered
  span := h.arrayContainers
  mem_span {path v w c} entered member := by
    cases v with
    | array r =>
      cases (newContainer?_eq_some.1 entered).1
      exact mem_arrayContainers member
    | _ => cases entered
  gather_congr {c f g} same := by
    congr 1
    refine List.map_congr_left fun w member => ?_
    rw [same w member]

theorem textWithin_succ (h : Heap) (fuel : Nat) (path : List Container) (v : Value) :
    h.textWithin (fuel + 1) (arraysOf path) v =
      h.textWalk.step (fun path v => h.textWithin fuel (arraysOf path) v) path v := by
  cases v with
  | array r =>
    have known_iff : (arraysOf path).contains r = true ↔ .array r ∈ path := by
      rw [List.contains_iff_mem, arraysOf, List.mem_filterMap]
      constructor
      · rintro ⟨c, member, is⟩
        cases c <;> cases is
        exact member
      · exact fun member => ⟨_, member, rfl⟩
    rw [textWithin]
    split
    next known =>
      have entered : h.textWalk.entered path (.array r) = none :=
        newContainer?_eq_none (v := .array r) rfl (known_iff.1 known)
      rw [Walk.step_of_none entered]
      rfl
    next new =>
      have entered : h.textWalk.entered path (.array r) = some (.array r) :=
        (newContainer?_eq_some (v := .array r)).2 ⟨rfl, new ∘ known_iff.2⟩
      rw [Walk.step_of_some entered]
      rfl
  | _ => rfl

/-- The conversion to text ends. -/
theorem run_textWalk {out : String} : h.textWalk.Run [] v out ↔ out = h.text v := by
  refine Walk.run_iff_of_step (fun fuel path v => h.textWithin fuel (arraysOf path) v)
    h.textWithin_succ ?_
  simp [Walk.room_nil, textWalk, arrayContainers]

/-! ### Inspection -/

/-- The inspection: it enters containers that are not empty, to a depth. -/
def inspectWalk (h : Heap) : Walk h String where
  entered path v :=
    (newContainer? path v).filter fun c => path.length < inspectLevels && !(h.held c).isEmpty
  answer path v :=
    match v with
    | .undefined => "undefined"
    | .null => "null"
    | .boolean b => if b then "true" else "false"
    | .number x => if x == 0.0 && Number.isNegative x then "-0" else Number.text x
    | .string s => singleQuoted s
    | .array r =>
      if .array r ∈ path then "[Circular]"
      else if inspectLevels ≤ path.length then "[Array]"
      else "[]"
    | .object r =>
      if .object r ∈ path then "[Circular]"
      else if inspectLevels ≤ path.length then "[Object]"
      else "\x7b\x7d"
    | .function r =>
      let name := ((h.function? r).map (·.name)).getD ""
      if name.isEmpty then "[Function (anonymous)]" else "[Function: " ++ name ++ "]"
  gather c made :=
    match c with
    | .array r => "[ " ++ String.intercalate ", " ((h.elements r).toList.map made) ++ " ]"
    | .object r =>
      let shown (e : String × Value) : String :=
        (if isPlainKey e.1 then e.1 else "'" ++ e.1 ++ "'") ++ ": " ++ made e.2
      "\x7b " ++ String.intercalate ", " ((h.object r).props.entries.map shown) ++ " \x7d"
  container_of_entered entered :=
    (newContainer?_eq_some.1 (Option.filter_eq_some_iff.1 entered).1).1
  new_of_entered entered :=
    (newContainer?_eq_some.1 (Option.filter_eq_some_iff.1 entered).1).2
  span := h.containers
  mem_span _ := mem_containers
  gather_congr {c f g} same := by
    cases c with
    | array r =>
      have items : (h.elements r).toList.map f = (h.elements r).toList.map g :=
        List.map_congr_left same
      simp only [items]
    | object r =>
      simp only
      congr 3
      refine List.map_congr_left fun e member => ?_
      rw [same _ (List.mem_map_of_mem member)]

theorem inspectWalk_entered_none (is : v.container? = some c)
    (shut : c ∈ path ∨ inspectLevels ≤ path.length ∨ h.held c = []) :
    h.inspectWalk.entered path v = none := by
  by_cases known : c ∈ path
  · simp [inspectWalk, newContainer?, is, known]
  · rcases shut with there | deep | empty
    · exact absurd there known
    · simp [inspectWalk, newContainer?, is, Nat.not_lt.2 deep]
    · simp [inspectWalk, newContainer?, is, known, empty]

theorem inspectWalk_entered_some (is : v.container? = some c) (new : c ∉ path)
    (shallow : path.length < inspectLevels) (full : h.held c ≠ []) :
    h.inspectWalk.entered path v = some c := by
  simp [inspectWalk, newContainer?, is, new, shallow, full]

theorem inspectWithin_eq_step (h : Heap) (path : List Container) (v : Value) :
    h.inspectWithin (inspectLevels - path.length) path v =
      h.inspectWalk.step
        (fun path v => h.inspectWithin (inspectLevels - path.length) path v) path v := by
  cases is : v.container? with
  | none => cases v <;> cases is <;> cases inspectLevels - path.length <;> rfl
  | some c =>
    by_cases known : c ∈ path
    · rw [Walk.step_of_none (inspectWalk_entered_none is (.inl known))]
      cases v <;> cases is <;> cases inspectLevels - path.length <;>
        simp [inspectWithin, inspectWalk, known]
    cases left : inspectLevels - path.length with
    | zero =>
      have deep : inspectLevels ≤ path.length := by omega
      rw [Walk.step_of_none (inspectWalk_entered_none is (.inr (.inl deep)))]
      cases v <;> cases is <;> simp [inspectWithin, inspectWalk, known, deep]
    | succ levels =>
      have shallow : path.length < inspectLevels := by omega
      have inner : inspectLevels - (c :: path).length = levels := by
        rw [List.length_cons]
        omega
      by_cases empty : h.held c = []
      · rw [Walk.step_of_none (inspectWalk_entered_none is (.inr (.inr empty)))]
        cases v <;> cases is <;>
          simp only [held, Array.toList_eq_nil_iff, List.map_eq_nil_iff] at empty <;>
          simp [inspectWithin, inspectWalk, known, Nat.not_le.2 shallow, empty]
      · rw [Walk.step_of_some (inspectWalk_entered_some is known shallow empty), inner]
        cases v <;> cases is <;>
          simp only [held, Array.toList_eq_nil_iff, List.map_eq_nil_iff] at empty <;>
          simp [inspectWithin, inspectWalk, known, empty]

/-- The inspection ends. -/
theorem run_inspectWalk {out : String} : h.inspectWalk.Run [] v out ↔ out = h.inspect v :=
  Walk.run_iff_of_step (fun _ path v => h.inspectWithin (inspectLevels - path.length) path v)
    (fun _ => h.inspectWithin_eq_step) (Nat.lt_succ_self _)

/-! ### Cycles -/

variable {out : Except Circular (Option Json)}

theorem jsonAnswer_eq_error (is : v.container? = some c) : jsonAnswer v = .error .circular := by
  cases v <;> cases is <;> rfl

theorem container_of_jsonAnswer (failed : jsonAnswer v = .error .circular) :
    ∃ c, v.container? = some c := by
  cases v with
  | array r => exact ⟨_, rfl⟩
  | object r => exact ⟨_, rfl⟩
  | _ => cases failed

theorem mem_of_not_entered (is : v.container? = some c) (none : newContainer? path v = none) :
    c ∈ path := by
  by_contra new
  rw [newContainer?_eq_some.2 ⟨is, new⟩] at none
  cases none

/-- A conversion inside containers that lead to the value fails on nothing but a cycle. -/
theorem leadsToCycle_of_run (run : h.jsonWalk.Run path v out) (failed : out = .error .circular)
    (above : ∀ c, v.container? = some c → ∀ p ∈ path, TransGen h.Holds p c) : h.LeadsToCycle v := by
  induction run with
  | answer none =>
    obtain ⟨c, is⟩ := container_of_jsonAnswer failed
    exact ⟨c, c, is, .refl, above c is c (mem_of_not_entered is none)⟩
  | @gather path v c made some _ ih =>
    have is := h.jsonWalk.container_of_entered some
    obtain ⟨w, member, failed⟩ := jsonGather_eq_error_iff.1 failed
    refine (leadsToCycle_iff_held is).2 ⟨w, member, ih w member failed fun e inside p on => ?_⟩
    rcases List.mem_cons.1 on with rfl | on
    · exact .single ⟨w, member, inside⟩
    · exact (above c is p on).tail ⟨w, member, inside⟩

/-- A conversion fails on a cycle. -/
theorem error_of_leadsToCycle (run : h.jsonWalk.Run path v out) (leads : h.LeadsToCycle v) :
    out = .error .circular := by
  induction run with
  | answer none =>
    obtain ⟨c, _, is, -⟩ := leads
    exact jsonAnswer_eq_error is
  | gather made some _ ih =>
    obtain ⟨w, member, leads⟩ :=
      (leadsToCycle_iff_held (h.jsonWalk.container_of_entered some)).1 leads
    exact jsonGather_eq_error_iff.2 ⟨w, member, ih w member leads⟩

theorem json?_eq_error_iff : h.json? v = .error .circular ↔ h.LeadsToCycle v := by
  have run := run_jsonWalk.2 (rfl : h.json? v = h.json? v)
  exact ⟨fun failed => leadsToCycle_of_run run failed fun _ _ _ on => absurd on (List.not_mem_nil),
    error_of_leadsToCycle run⟩

/-- The containers around a value do not matter to its conversion if it leads neither to them nor to
a cycle. -/
theorem run_unique_of_apart {path' : List Container} {out' : Except Circular (Option Json)}
    (run : h.jsonWalk.Run path v out) (run' : h.jsonWalk.Run path' v out')
    (apart : ∀ c, v.container? = some c → ∀ d, ReflTransGen h.Holds c d →
      d ∉ path ∧ d ∉ path' ∧ ¬TransGen h.Holds d d) : out = out' := by
  induction run generalizing path' out' with
  | answer none =>
    cases run' with
    | answer => rfl
    | gather _ some =>
      have is := h.jsonWalk.container_of_entered some
      exact absurd (mem_of_not_entered is none) (apart _ is _ .refl).1
  | @gather path v c made some _ ih =>
    have is := h.jsonWalk.container_of_entered some
    cases run' with
    | answer none => exact absurd (mem_of_not_entered is none) (apart c is c .refl).2.1
    | gather made' some' inside' =>
      cases is.symm.trans (h.jsonWalk.container_of_entered some')
      refine h.jsonWalk.gather_congr fun w member => ih w member (inside' w member) ?_
      intro e inside d reach
      have step : h.Holds c e := ⟨w, member, inside⟩
      obtain ⟨out, out', acyclic⟩ := apart c is d (.head step reach)
      have ne : d ≠ c := by
        rintro rfl
        exact acyclic (.head' step reach)
      exact ⟨by simp [ne, out], by simp [ne, out'], acyclic⟩

/-- A container is converted from what is in it, as if nothing were around that. -/
theorem json?_eq_gather (is : v.container? = some c) : h.json? v = h.jsonGather c h.json? := by
  by_cases leads : h.LeadsToCycle v
  · obtain ⟨w, member, inner⟩ := (leadsToCycle_iff_held is).1 leads
    rw [json?_eq_error_iff.2 leads,
      jsonGather_eq_error_iff.2 ⟨w, member, json?_eq_error_iff.2 inner⟩]
  · have run := run_jsonWalk.2 (rfl : h.json? v = h.json? v)
    generalize h.json? v = out at run
    cases run with
    | answer none => exact absurd (mem_of_not_entered is none) List.not_mem_nil
    | gather made some inside =>
      cases is.symm.trans (h.jsonWalk.container_of_entered some)
      refine h.jsonWalk.gather_congr fun w member => ?_
      refine run_unique_of_apart (inside w member) (run_jsonWalk.2 rfl) fun e holds d reach => ?_
      have step : h.Holds c e := ⟨w, member, holds⟩
      have acyclic : ¬TransGen h.Holds d d := fun cycle => leads ⟨c, d, is, .head step reach, cycle⟩
      refine ⟨?_, List.not_mem_nil, acyclic⟩
      rw [List.mem_singleton]
      rintro rfl
      exact acyclic (.head' step reach)

/-! ### Main statement -/

/-- The fault of a script or a host that converts what leads to a cycle. -/
def circularFault : Fault :=
  { cause := .type .circularJson }

theorem json_eq_error_iff : h.json v = .error .circular ↔ h.LeadsToCycle v := by
  rw [← json?_eq_error_iff, json]
  cases h.json? v <;> simp [bind, Except.bind, pure, Except.pure]

/-- A computation fails on what leads to a cycle, and else it answers; it changes nothing. -/
def FailsOnCycle {α : Type} (v : Value) (m : Eval α) : Prop :=
  ∀ s : State, (s.heap.LeadsToCycle v → m s = .fault circularFault s) ∧
    (¬s.heap.LeadsToCycle v → ∃ x, m s = .ok x s)

theorem failsOnCycle_stringify (v : Value) (rest : List Value) :
    FailsOnCycle v (Native.stringify (v :: rest)) := by
  intro s
  have eq : Native.argument (v :: rest) 0 = v := rfl
  simp only [Native.stringify, eq, bind, Eval.bind, Eval.gets]
  constructor
  · intro leads
    simp only [json?_eq_error_iff.2 leads]
    rfl
  · intro apart
    cases converted : s.heap.json? v with
    | error e => exact absurd (json?_eq_error_iff.1 converted) apart
    | ok out => cases out <;> exact ⟨_, rfl⟩

theorem failsOnCycle_expectJson (code : String) (v : Value) (expected : Json) :
    FailsOnCycle v (Eval.expectJson code v expected) := by
  intro s
  simp only [Eval.expectJson, bind, Eval.bind, Eval.gets]
  constructor
  · intro leads
    simp only [json_eq_error_iff.2 leads]
    rfl
  · intro apart
    cases converted : s.heap.json v with
    | error e => exact absurd (json_eq_error_iff.1 converted) apart
    | ok actual =>
      simp only
      split <;> exact ⟨_, rfl⟩

/-- The conversions end on every heap. That to JSON fails, with an error that scripts and hosts see,
exactly on values from which a cycle of arrays and objects can be reached. A container is converted
from what is in it, however often it comes up. -/
theorem conversions_end (h : Heap) (v : Value) :
    (∀ out, h.jsonWalk.Run [] v out ↔ out = h.json? v) ∧
    (∀ out, h.textWalk.Run [] v out ↔ out = h.text v) ∧
    (∀ out, h.inspectWalk.Run [] v out ↔ out = h.inspect v) ∧
    (h.json v = .error .circular ↔ h.LeadsToCycle v) ∧
    (∀ c, v.container? = some c → h.json? v = h.jsonGather c h.json?) ∧
    (∀ rest, FailsOnCycle v (Native.stringify (v :: rest))) ∧
    (∀ code expected, FailsOnCycle v (Eval.expectJson code v expected)) ∧
    circularFault.cause.headline h = "TypeError: Converting circular structure to JSON" :=
  ⟨fun _ => run_jsonWalk, fun _ => run_textWalk, fun _ => run_inspectWalk, json_eq_error_iff,
    fun _ => json?_eq_gather, failsOnCycle_stringify v, fun code =>
      failsOnCycle_expectJson code v, rfl⟩

example :
    let h : Heap := { arrays := #[#[.array ⟨0⟩], #[.array ⟨2⟩, .array ⟨2⟩], #[]] }
    h.json (.array ⟨0⟩) = .error .circular ∧ h.inspect (.array ⟨0⟩) = "[ [Circular] ]" ∧
      h.text (.array ⟨0⟩) = "" ∧ h.json (.array ⟨1⟩) = .ok (.arr [.arr [], .arr []]) := by
  refine ⟨rfl, ?_, ?_, rfl⟩ <;> decide +kernel

end Heap

end Scriptlet
