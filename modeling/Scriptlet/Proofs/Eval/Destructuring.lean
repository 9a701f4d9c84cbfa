import Scriptlet.Proofs.Eval.Projection
import Scriptlet.Proofs.Value.Enumeration

/-!
Destructuring does what patterns say.

Main statement: `destructuring_denotes`. A declaration with a plain pattern without defaults
succeeds as long as the patterns in it fit what they meet, and then adds their names, each bound to
its projection of the value. With defaults it goes from left to right by the rules of `Job.Binds`.
-/

namespace Scriptlet

open Eval

/-! ### Several names -/

/-- A record with more names, each with a value. -/
def Record.declare (r : Record) (bs : List (String × Value)) : Record :=
  { r with bindings := bs.foldl (fun t e => t.insert e.1 ⟨e.2, .let_⟩) r.bindings }

theorem Record.declare_append (r : Record) (bs cs : List (String × Value)) :
    r.declare (bs ++ cs) = (r.declare bs).declare cs := by
  unfold declare
  rw [List.foldl_append]

/-- New names come after those that there are, in their order. -/
theorem Record.entries_declare {r : Record} {bs : List (String × Value)}
    (distinct : (r.bindings.keys ++ bs.map (·.1)).Nodup) : (r.declare bs).bindings.entries =
      r.bindings.entries ++ bs.map fun e => (e.1, ⟨e.2, .let_⟩) := by
  have keys :
      (r.bindings.keys ++ (bs.map fun e => (e.1, (⟨e.2, .let_⟩ : Binding))).map (·.1)).Nodup := by
    rwa [List.map_map]
  have entries := Table.entries_foldl_insert keys
  rwa [List.foldl_map] at entries

theorem Record.get?_declare {r : Record} {bs : List (String × Value)} {x : String}
    (other : x ∉ bs.map (·.1)) :
    (r.declare bs).bindings.get? x = r.bindings.get? x := by
  induction bs generalizing r with
  | nil => rfl
  | cons e bs ih =>
    rw [List.map_cons, List.mem_cons, not_or] at other
    rw [← List.singleton_append, declare_append, ih other.2]
    exact Table.get?_insert_of_ne _ (Ne.symm other.1) _

namespace State

variable {b s t u : State} {env : ScopeId} {bs cs : List (String × Value)} {j : Pattern × Source}
  {js : List (Pattern × Source)} {o : Outcome Unit} {h h' : Heap} {ns ms : List String}

/-- A record got more names, each with a value. Apart from that there are only more containers. -/
structure Progress (s : State) (env : ScopeId) (t : State) (bs : List (String × Value)) : Prop where
  heap : s.heap.Extends t.heap
  rest : t = { s with heap := t.heap, scopes := s.scopes.modifyRecord env (·.declare bs) }

namespace Progress

theorem of_heap (more : s.heap.Extends h) : s.Progress env { s with heap := h } [] :=
  ⟨more, by simp only [Record.declare, List.foldl_nil, Arena.modifyRecord_id]⟩

theorem trans (first : s.Progress env t bs) (second : t.Progress env u cs) :
    s.Progress env u (bs ++ cs) := by
  refine ⟨first.heap.trans second.heap, ?_⟩
  simp only [Record.declare_append]
  rw [second.rest, first.rest, Arena.modifyRecord_modifyRecord]

theorem size (progress : s.Progress env t bs) : t.scopes.records.size = s.scopes.records.size := by
  rw [progress.rest, Arena.size_modifyRecord]

/-- No name is bound that was not before, but those that got values. -/
theorem binds (progress : s.Progress env t bs) {x : String} (other : x ∉ bs.map (·.1))
    (unbound : s.scopes.binds env x = false) : t.scopes.binds env x = false := by
  rw [progress.rest]
  unfold Arena.binds Table.contains at unbound ⊢
  change (((s.scopes.modifyRecord env (·.declare bs)).record env).bindings.get? x).isSome = false
  rw [Arena.record_modifyRecord]
  split
  · rwa [Record.get?_declare other]
  · exact unbound

end Progress

/-- A name below a pattern, and a value that is the projection it is matched with. -/
def Projects (b : State) (h : Heap) (j : Pattern × Source) (x : String) (w : Value) : Prop :=
  ∃ span name src, b.Meets j (.identifier span name, src) ∧ name.text = x ∧ src.Realized b.heap h w

/-- The names of patterns with the projections that they denote. -/
structure Denotes (b : State) (h : Heap) (js : List (Pattern × Source))
    (bs : List (String × Value)) :
    Prop where
  names : bs.map (·.1) = js.flatMap (·.1.names)
  bound : ∀ e ∈ bs, ∃ j ∈ js, b.Projects h j e.1 e.2
  met : ∀ j ∈ js, ∀ span name src, b.Meets j (.identifier span name, src) →
    ∃ w, (name.text, w) ∈ bs ∧ src.Realized b.heap h w

/-- How patterns are bound to the sources that they go with. -/
def Verdict (b : State) (env : ScopeId) (s : State) (js : List (Pattern × Source)) :
    Outcome Unit → Prop
  | .ok _ t => (∀ j ∈ js, b.Fits j) ∧ ∃ bs, s.Progress env t bs ∧ b.Denotes t.heap js bs
  | .fault _ _ => ¬∀ j ∈ js, b.Fits j
  | .exhausted _ => True

theorem Projects.mono {x : String} {w : Value} (projects : b.Projects h j x w)
    (more : h.Extends h') :
    b.Projects h' j x w := by
  obtain ⟨span, name, src, meets, same, realized⟩ := projects
  exact ⟨span, name, src, meets, same, realized.mono more⟩

namespace Denotes

theorem append (first : b.Denotes h [j] bs) (more : h.Extends h') (second : b.Denotes h' js cs) :
    b.Denotes h' (j :: js) (bs ++ cs) := by
  refine ⟨?_, fun e member => ?_, fun k member span name src meets => ?_⟩
  · rw [List.map_append, first.names, second.names]
    simp
  · rcases List.mem_append.1 member with member | member
    · obtain ⟨k, single, projects⟩ := first.bound e member
      rw [List.mem_singleton.1 single] at projects
      exact ⟨j, List.mem_cons_self, projects.mono more⟩
    · obtain ⟨k, there, projects⟩ := second.bound e member
      exact ⟨k, List.mem_cons_of_mem _ there, projects⟩
  · rcases List.mem_cons.1 member with rfl | member
    · obtain ⟨w, there, realized⟩ := first.met k List.mem_cons_self span name src meets
      exact ⟨w, List.mem_append_left _ there, realized.mono more⟩
    · obtain ⟨w, there, realized⟩ := second.met k member span name src meets
      exact ⟨w, List.mem_append_right _ there, realized⟩

/-- The names below a pattern are those below its parts. -/
theorem of_parts (below : b.Denotes h (b.parts j) bs)
    (names : j.1.names = (b.parts j).flatMap (·.1.names))
    (inner : ∀ span name, j.1 ≠ .identifier span name) : b.Denotes h [j] bs := by
  refine ⟨?_, fun e member => ?_, fun k single span name src meets => ?_⟩
  · rw [below.names, List.flatMap_singleton, names]
  · obtain ⟨k, part, span, name, src, meets, same, realized⟩ := below.bound e member
    exact ⟨j, List.mem_cons_self, span, name, src, .head part meets, same, realized⟩
  · cases List.mem_singleton.1 single
    rcases Relation.ReflTransGen.cases_head meets with same | ⟨l, part, meets⟩
    · exact absurd (congrArg Prod.fst same) (inner span name)
    · exact below.met l part span name src meets

end Denotes

namespace Verdict

theorem nil : b.Verdict env s [] (.ok () s) :=
  ⟨by simp, [], .of_heap (.refl _), ⟨rfl, by simp, by simp⟩⟩

/-- Containers may be made before. -/
theorem before (progress : s.Progress env t []) (verdict : b.Verdict env t js o) :
    b.Verdict env s js o := by
  cases o with
  | ok _ u =>
    obtain ⟨fits, bs, more, denotes⟩ := verdict
    exact ⟨fits, bs, progress.trans more, denotes⟩
  | fault => exact verdict
  | exhausted => trivial

theorem cons (first : b.Verdict env s [j] (.ok () t)) (second : b.Verdict env t js o) :
    b.Verdict env s (j :: js) o := by
  obtain ⟨fits, bs, progress, denotes⟩ := first
  cases o with
  | ok _ u =>
    obtain ⟨fits', cs, progress', denotes'⟩ := second
    refine ⟨?_, bs ++ cs, progress.trans progress', denotes.append progress'.heap denotes'⟩
    rw [List.forall_mem_cons]
    exact ⟨fits j List.mem_cons_self, fits'⟩
  | fault => exact fun all => second fun k member => all k (List.mem_cons_of_mem _ member)
  | exhausted => trivial

theorem stops (first : b.Verdict env s [j] o) (stops : ∀ u, o ≠ .ok () u) :
    b.Verdict env s (j :: js) o := by
  cases o with
  | ok _ u => exact absurd rfl (stops u)
  | fault =>
    refine fun all => first fun k single => ?_
    rw [List.mem_singleton.1 single]
    exact all j List.mem_cons_self
  | exhausted => trivial

theorem refused {f : Fault} (refuses : ¬Accepts j) : b.Verdict env s [j] (.fault f t) :=
  fun all => refuses (all j List.mem_cons_self j .refl)

theorem of_parts (below : b.Verdict env s (b.parts j) o) (accepts : Accepts j)
    (names : j.1.names = (b.parts j).flatMap (·.1.names))
    (inner : ∀ span name, j.1 ≠ .identifier span name) :
    b.Verdict env s [j] o := by
  have fits : (∀ k ∈ [j], b.Fits k) ↔ ∀ k ∈ b.parts j, b.Fits k := by
    rw [List.forall_mem_singleton, fits_iff]
    exact and_iff_right accepts
  cases o with
  | ok _ u =>
    obtain ⟨all, bs, progress, denotes⟩ := below
    exact ⟨fits.2 all, bs, progress, denotes.of_parts names inner⟩
  | fault => exact mt fits.1 below
  | exhausted => trivial

end Verdict

/-- A state at which names can be declared, with all that there was in an earlier one. -/
structure Stage (b : State) (env : ScopeId) (s : State) (ns : List String) : Prop where
  heap : b.heap.Extends s.heap
  realm : s.realm = b.realm
  inside : env.index < s.scopes.records.size
  distinct : ns.Nodup
  fresh : ∀ x ∈ ns, s.scopes.binds env x = false

namespace Stage

theorem left (stage : b.Stage env s (ns ++ ms)) : b.Stage env s ns :=
  ⟨stage.heap, stage.realm, stage.inside, stage.distinct.sublist (List.sublist_append_left ..),
    fun x member => stage.fresh x (List.mem_append_left _ member)⟩

theorem after (stage : b.Stage env s (ns ++ ms)) (progress : s.Progress env t bs)
    (names : bs.map (·.1) = ns) : b.Stage env t ms := by
  obtain ⟨-, distinct, apart⟩ := List.nodup_append.1 stage.distinct
  refine ⟨stage.heap.trans progress.heap, ?_, ?_, distinct, fun x member => ?_⟩
  · rw [progress.rest]
    exact stage.realm
  · rw [progress.size]
    exact stage.inside
  · refine progress.binds ?_ (stage.fresh x (List.mem_append_right _ member))
    rw [names]
    exact fun early => apart x early x member rfl

/-- Containers may be made before. -/
theorem made (stage : b.Stage env s ns) (progress : s.Progress env t []) : b.Stage env t ns :=
  @after _ _ _ _ _ [] ns stage progress rfl

end Stage

/-! ### From the rules to what patterns denote -/

/-- What the elements of an array pattern are matched with, the first one being at place `i`. -/
def slots (vs : List Value) (es : List (Option Pattern)) (i : Nat) : List (Pattern × Source) :=
  (es.zipIdx i).filterMap fun e => e.1.map (slot vs e.2)

/-- What the properties of an object pattern and its rest are matched with; `used` are the keys
before. -/
def fields (b : State) (src : Source) (used : List String) (ps : List PatternProperty)
    (rest : Option Pattern) :
    List (Pattern × Source) :=
  ps.map (fun p => (p.value, .value (src.property b p.text))) ++
    rest.toList.map fun p =>
      (p, .entries ((src.own b).filter fun e => !((ps.map (·.text)).reverse ++ used).contains e.1))

/-- A job binds patterns to values that they are matched with. -/
inductive Covers (b s : State) : Job → List (Pattern × Source) → Prop where
  | pattern {p : Pattern} {v : Value} {src : Source} :
      src.Sound b.heap → src.Realized b.heap s.heap v →
      Covers b s (.pattern p v) [(p, src)]
  | elements (es : List (Option Pattern)) {vs : List Value} (i : Nat) : (∀ v ∈ vs, b.heap.Has v) →
      Covers b s (.elements es (vs.drop i)) (slots vs es i)
  | properties {v : Value} {src : Source} (used : List String) (ps : List PatternProperty)
      (rest : Option Pattern) : src.Sound b.heap → src.Realized b.heap s.heap v →
      Covers b s (.properties v used ps rest) (b.fields src used ps rest)

theorem slots_cons (vs : List Value) (e : Option Pattern) (es : List (Option Pattern)) (i : Nat) :
    slots vs (e :: es) i = (e.map (slot vs i)).toList ++ slots vs es (i + 1) := by
  cases e <;> simp [slots, List.zipIdx_cons]

theorem names_slots (vs : List Value) (es : List (Option Pattern)) (i : Nat) :
    (slots vs es i).flatMap (·.1.names) = Pattern.elementNames es := by
  induction es generalizing i with
  | nil => rfl
  | cons e es ih =>
    rw [slots_cons, List.flatMap_append, ih, Pattern.elementNames_cons]
    cases e with
    | none => rfl
    | some p => simp [slot, Pattern.names_inner, Pattern.optionNames]

theorem propertyNames_eq (ps : List PatternProperty) :
    Pattern.propertyNames ps = ps.flatMap (·.value.names) := by
  induction ps with
  | nil => rfl
  | cons p ps ih => rw [Pattern.propertyNames_cons, ih, List.flatMap_cons]

theorem names_fields (b : State) (src : Source) (used : List String) (ps : List PatternProperty)
    (rest : Option Pattern) : (b.fields src used ps rest).flatMap (·.1.names) =
      Pattern.propertyNames ps ++ Pattern.optionNames rest := by
  unfold fields
  rw [List.flatMap_append, List.flatMap_map, propertyNames_eq]
  cases rest with
  | none => rfl
  | some p => simp [Pattern.optionNames]

theorem fields_cons (b : State) (src : Source) (used : List String) (p : PatternProperty)
    (ps : List PatternProperty) (rest : Option Pattern) : b.fields src used (p :: ps) rest =
      (p.value, .value (src.property b p.text)) :: b.fields src (p.text :: used) ps rest := by
  simp [fields]

theorem verdict_name {span : Span} {x : Name} {v : Value} {src : Source}
    (stage : b.Stage env s [x.text]) (realized : src.Realized b.heap s.heap v) :
    b.Verdict env s [(.identifier span x, src)]
      (located x.span (bindName (.declare .let_) x.text v env) s) := by
  have done : bindName (.declare .let_) x.text v env s =
      .ok () { s with scopes := s.scopes.bind env x.text ⟨v, .let_⟩ } := by
    rw [bindName_let, stage.fresh x.text List.mem_cons_self]
    rfl
  rw [located_ok done]
  refine ⟨?_, [(x.text, v)], ⟨.refl _, rfl⟩, ?_, ?_, ?_⟩
  · rw [List.forall_mem_singleton, fits_iff]
    exact ⟨trivial, fun _ member => absurd member List.not_mem_nil⟩
  · rfl
  · rintro e single
    cases List.mem_singleton.1 single
    exact ⟨_, List.mem_cons_self, span, x, src, .refl, rfl, realized⟩
  · rintro j single span' name src' meets
    cases List.mem_singleton.1 single
    rcases Relation.ReflTransGen.cases_head meets with same | ⟨l, part, -⟩
    · cases same
      exact ⟨v, List.mem_cons_self, realized⟩
    · exact absurd part List.not_mem_nil

theorem slot_made {vs : List Value} {i : Nat} {p : Pattern} {w : Value} (stage : b.Stage env s ns)
    (there : ∀ v ∈ vs, b.heap.Has v) (made : elementValue p (vs.drop i) s = .ok w t) :
    s.Progress env t [] ∧ Covers b t (.pattern p.inner w) [slot vs i p] := by
  have sound : (slot vs i p).2.Sound b.heap := by
    unfold slot
    split
    · exact fun v member => there v (List.mem_of_mem_drop member)
    · change b.heap.Has (vs.getD i .undefined)
      rw [List.getD_eq_getElem?_getD]
      cases found : vs[i]? with
      | none => trivial
      | some v => exact there v (List.mem_of_getElem? found)
  have same : elementValue p (vs.drop i) = (slot vs i p).2.make := by
    unfold elementValue slot
    split
    · rfl
    · rw [List.headD_eq_head?_getD, List.head?_drop, ← List.getD_eq_getElem?_getD]
      rfl
  obtain ⟨w', h, made', more, realized⟩ := Source.make_realizes sound stage.heap
  rw [same, made'] at made
  cases made
  exact ⟨.of_heap more, .pattern sound realized⟩

theorem property_read {v w : Value} {src : Source} {p : PatternProperty} (closed : b.heap.Closed)
    (stage : b.Stage env s ns) (sound : src.Sound b.heap) (realized : src.Realized b.heap s.heap v)
    (ordinary : v.isNullish = false) (apart : p.text ≠ "prototype")
    (read : getProperty v p.text s = .ok w s) :
    Covers b s (.pattern p.value w) [(p.value, .value (src.property b p.text))] := by
  have ordinary : src.isNullish = false := realized.isNullish_eq.symm.trans ordinary
  rw [Source.getProperty_eq closed sound stage.heap stage.realm realized ordinary apart] at read
  cases read
  exact .pattern (Source.sound_property closed sound p.text ordinary apart) rfl

theorem remainder_made {v w : Value} {src : Source} {used : List String} (closed : b.heap.Closed)
    (stage : b.Stage env s ns) (sound : src.Sound b.heap) (realized : src.Realized b.heap s.heap v)
    (made : remainder v used s = .ok w t) (p : Pattern) : s.Progress env t [] ∧
      Covers b t (.pattern p w)
        [(p, .entries ((src.own b).filter fun e => !used.contains e.1))] := by
  let left := (src.own b).filter fun e => !used.contains e.1
  obtain ⟨there, distinct⟩ := Source.sound_own closed sound
  have sound' : (Source.entries left).Sound b.heap :=
    ⟨fun e member => there e (List.mem_of_mem_filter member),
      distinct.sublist (List.filter_sublist.map _)⟩
  have same : remainder v used s = (Source.entries left).make s := by
    unfold remainder
    rw [bind_of_ok (show gets _ s = .ok _ s from rfl)]
    rw [Source.ownEntries_eq sound stage.heap realized]
    rfl
  obtain ⟨w', h, made', more, realized'⟩ := Source.make_realizes sound' stage.heap
  rw [same, made'] at made
  cases made
  exact ⟨.of_heap more, .pattern sound' realized'⟩

theorem parts_object (b : State) (span : Span) (ps : List PatternProperty) (rest : Option Pattern)
    (src : Source) : b.parts (.object span ps rest, src) = b.fields src [] ps rest := by
  simp [parts, fields]

theorem Stage.inner {es : List (Option Pattern)} (p : Pattern)
    (stage : b.Stage env s (Pattern.elementNames (some p :: es))) :
    b.Stage env s (p.inner.names ++ Pattern.elementNames es) := by
  rwa [Pattern.names_inner]

theorem Stage.property {p : PatternProperty} {ps : List PatternProperty} {rest : Option Pattern}
    (stage : b.Stage env s (Pattern.propertyNames (p :: ps) ++ Pattern.optionNames rest)) :
    b.Stage env s (p.value.names ++ (Pattern.propertyNames ps ++ Pattern.optionNames rest)) := by
  rwa [Pattern.propertyNames_cons, List.append_assoc] at stage

theorem Verdict.heap (first : b.Verdict env s js (.ok () t)) : s.heap.Extends t.heap := by
  obtain ⟨-, bs, progress, -⟩ := first
  exact progress.heap

theorem Verdict.stage (first : b.Verdict env s [j] (.ok () t))
    (stage : b.Stage env s (j.1.names ++ ms)) :
    b.Stage env t ms := by
  obtain ⟨-, bs, progress, denotes⟩ := first
  refine stage.after progress ?_
  rw [denotes.names, List.flatMap_singleton]

/-- What the rules do is what the patterns denote. By induction on the rules: a job and the patterns
that it covers come down to the same parts, and what is read in between is what was there at the
start. -/
theorem verdict_of_binds {n : Nat} {bound : List String} {job : Job} (closed : b.heap.Closed)
    (binds : job.Binds env n bound s o) (plain : job.Plain False) (stage : b.Stage env s job.names)
    (covers : Covers b s job js) : b.Verdict env s js o := by
  induction binds generalizing js with
  | spent => trivial
  | name =>
    cases covers with
    | pattern sound realized => exact verdict_name stage realized
  | given | default | defaultFault | defaultSpent => exact (plain.withDefault .undefined).1.elim
  | @array n bound span es v items s o read _ ih =>
    cases covers with
    | @pattern _ _ src sound realized =>
      have iterable : src.isIterable = true := by
        refine Bool.eq_true_of_not_eq_false fun other => ?_
        obtain ⟨f, refused⟩ := Source.iterate_refused realized other
        rw [read] at refused
        cases refused
      rw [Source.iterate_eq sound stage.heap realized iterable] at read
      cases read
      refine .of_parts ?_ iterable (names_slots _ es 0).symm nofun
      exact ih (plain.array _) stage (.elements es 0 (Source.sound_elements closed sound))
  | arrayRefused refused =>
    cases covers with
    | pattern sound realized =>
      refine .refused fun iterable => ?_
      rw [Source.iterate_eq sound stage.heap realized iterable] at refused
      cases refused
  | @object n bound span ps rest v s o ordinary _ ih =>
    cases covers with
    | pattern sound realized =>
      refine .of_parts ?_ (realized.isNullish_eq.symm.trans ordinary) ?_ nofun
      · rw [parts_object]
        exact ih (plain.object ordinary) stage (.properties [] ps rest sound realized)
      · rw [parts_object, names_fields]
        rfl
  | objectRefused nullish =>
    cases covers with
    | pattern sound realized =>
      refine .refused fun accepts => ?_
      rw [realized.isNullish_eq.trans accepts] at nullish
      cases nullish
  | noElements =>
    cases covers with
    | elements => exact .nil
  | elision _ ih =>
    cases covers with
    | @elements _ vs i there =>
      rw [slots_cons]
      refine ih (plain.elements_tail _) stage ?_
      rw [List.tail_drop]
      exact .elements _ (i + 1) there
  | @element n bound p es items w s t u o made _ _ first later =>
    cases covers with
    | @elements _ vs i there =>
      obtain ⟨progress, covers⟩ := slot_made stage there made
      have stage := (stage.made progress).inner p
      have first := first (plain.element w) stage.left covers
      rw [slots_cons]
      refine .before progress (first.cons (later (plain.elements_tail _) (first.stage stage) ?_))
      rw [List.tail_drop]
      exact .elements _ (i + 1) there
  | elementStops made _ stops ih =>
    cases covers with
    | @elements _ vs i there =>
      obtain ⟨progress, covers⟩ := slot_made stage there made
      have stage := (stage.made progress).inner _
      have first := ih (plain.element _) stage.left covers
      rw [slots_cons]
      exact .before progress (first.stops stops)
  | property known read _ _ first later =>
    cases covers with
    | properties used ps rest sound realized =>
      have covers := property_read closed stage sound realized plain.ordinary plain.key.2 read
      have stage := stage.property
      have first := first (plain.property _) stage.left covers
      rw [fields_cons]
      refine first.cons (later (plain.properties_tail _) (first.stage stage) ?_)
      exact .properties _ _ _ sound (realized.mono first.heap)
  | propertyStops known read _ stops ih =>
    cases covers with
    | properties used ps rest sound realized =>
      have covers := property_read closed stage sound realized plain.ordinary plain.key.2 read
      rw [fields_cons]
      exact (ih (plain.property _) stage.property.left covers).stops stops
  | noRest =>
    cases covers with
    | properties => exact .nil
  | rest made _ ih =>
    cases covers with
    | properties used ps rest sound realized =>
      obtain ⟨progress, covers⟩ := remainder_made closed stage sound realized made _
      exact .before progress (ih (plain.others _) (stage.made progress) covers)

end State

/-! ### Enough fuel -/

namespace Job

/-- How deep patterns are nested in a job. -/
def depth : Job → Nat
  | .pattern p _ => p.depth
  | .elements es _ => Pattern.elementDepth es
  | .properties _ _ ps rest => max (Pattern.propertyDepth ps) (Pattern.optionDepth rest)

/-- Without defaults, fuel only runs out where patterns are nested too deep for it. -/
theorem Binds.lt_depth {env : ScopeId} {n : Nat} {bound : List String} {job : Job} {s t : State}
    {o : Outcome Unit} (binds : job.Binds env n bound s o) (plain : job.Plain False)
    (stopped : o = .exhausted t) : n < job.depth := by
  induction binds with
  | spent => exact Pattern.depth_pos _
  | @name n bound span x v s =>
    have done := bindName_let x.text v env s
    split at done
    · rw [located_fault done] at stopped
      cases stopped
    · rw [located_ok done] at stopped
      cases stopped
  | given | default | defaultFault | defaultSpent => exact (plain.withDefault .undefined).1.elim
  | array _ _ ih => exact Nat.succ_lt_succ (ih (plain.array _) stopped)
  | object ordinary _ ih => exact Nat.succ_lt_succ (ih (plain.object ordinary) stopped)
  | arrayRefused | noElements | noRest => cases stopped
  | objectRefused => simp [located, typeFault, raise] at stopped
  | elision _ ih =>
    exact Nat.lt_of_lt_of_le (ih (plain.elements_tail _) stopped) (Nat.le_max_right ..)
  | element _ _ _ _ later =>
    exact Nat.lt_of_lt_of_le (later (plain.elements_tail _) stopped) (Nat.le_max_right ..)
  | elementStops _ _ _ ih =>
    have deep := ih (plain.element _) stopped
    exact Nat.lt_of_lt_of_le deep ((Pattern.depth_inner_le _).trans (Nat.le_max_left ..))
  | property _ _ _ _ _ later =>
    have deep := later (plain.properties_tail _) stopped
    simp only [depth, Pattern.propertyDepth_cons] at deep ⊢
    omega
  | propertyStops _ _ _ _ ih =>
    have deep := ih (plain.property _) stopped
    simp only [depth, Pattern.propertyDepth_cons] at deep ⊢
    omega
  | rest _ _ ih => exact Nat.lt_of_lt_of_le (ih (plain.others _) stopped) (Nat.le_max_right ..)

end Job

/-! ### Plain patterns -/

/-- The names of a pattern were added to a record, after those that it had. Each is bound to its
projection of the value, and nothing else is different but that there are more containers. -/
structure State.Destructures (s : State) (env : ScopeId) (p : Pattern) (v : Value) (t : State)
    (bs : List (String × Value)) : Prop where
  progress : s.Progress env t bs
  added : (t.scopes.record env).bindings.entries =
    (s.scopes.record env).bindings.entries ++ bs.map fun e => (e.1, ⟨e.2, .let_⟩)
  denotes : s.Denotes t.heap [(p, .value v)] bs

namespace State

variable {s t : State} {env : ScopeId} {p : Pattern} {v : Value} {bs : List (String × Value)}

theorem Destructures.of_denotes (inside : env.index < s.scopes.records.size)
    (distinct : p.names.Nodup)
    (fresh : ∀ x ∈ p.names, s.scopes.binds env x = false) (progress : s.Progress env t bs)
    (denotes : s.Denotes t.heap [(p, .value v)] bs) : s.Destructures env p v t bs := by
  refine ⟨progress, ?_, denotes⟩
  have names : bs.map (·.1) = p.names := by rw [denotes.names, List.flatMap_singleton]
  have record : t.scopes.record env = (s.scopes.record env).declare bs := by
    rw [progress.rest]
    exact Arena.record_modifyRecord_self inside _
  rw [record]
  refine Record.entries_declare ?_
  rw [names]
  refine List.nodup_append.2 ⟨Table.nodup_keys _, distinct, fun x old y new same => ?_⟩
  have unbound := fresh y new
  rw [Arena.binds, Table.contains, ← same] at unbound
  rw [← Table.isSome_get?_iff, unbound] at old
  cases old

end State

/-- Destructuring with `let` in a running record of an orderly state, by a pattern of distinct names
that it does not bind yet. No reference dangles, and what objects inherit from comes to an end.
Without defaults, it succeeds exactly if all array patterns meet arrays or texts and no object
pattern meets undefined or null, and adds the names, each bound to its projection. With defaults, it
goes as the rules say: an undefined value has its default evaluated when all names to the left are
bound, and no other value has. -/
theorem destructuring_denotes {s : State} {env : ScopeId} {p : Pattern} {v : Value}
    (closed : s.heap.Closed) (there : s.heap.Has v) (orderly : s.Orderly)
    (running : (s.scopes.record env).phase = .running) (distinct : p.names.Nodup)
    (fresh : ∀ x ∈ p.names, s.scopes.binds env x = false) (fuel : Nat) :
    (p.Plain False →
      (p.depth ≤ fuel →
        ((∃ t, (recursion fuel).bind (.declare .let_) p v env s = .ok () t) ↔
          s.Fits (p, .value v)) ∧
        (¬s.Fits (p, .value v) →
          ∃ f t, (recursion fuel).bind (.declare .let_) p v env s = .fault f t)) ∧
      ∀ t, (recursion fuel).bind (.declare .let_) p v env s = .ok () t →
        s.Fits (p, .value v) ∧ ∃ bs, s.Destructures env p v t bs) ∧
    (p.Plain True → ∀ o, (recursion fuel).bind (.declare .let_) p v env s = o ↔
      (Job.pattern p v).Binds env fuel [] s o) := by
  have allocated : (s.scopes.record env).phase ≠ .free := by simp [running]
  have inside := Arena.lt_size_of_allocated allocated
  have ready : Job.Ready env [] s := ⟨orderly, running, by simp⟩
  refine ⟨fun plain => ?_, fun plain o => (Job.binds_iff (.pattern v plain) ready).symm⟩
  have binds := Job.binds_run (n := fuel) (.pattern v (plain.mono False.elim)) ready
  have stage : s.Stage env s p.names := ⟨.refl _, rfl, inside, distinct, fresh⟩
  have covers : State.Covers s s (.pattern p v) [(p, .value v)] := .pattern there rfl
  have verdict := State.verdict_of_binds closed binds (.pattern v plain) stage covers
  have deep (t : State) := binds.lt_depth (t := t) (.pattern v plain)
  change let o := (Job.pattern p v).run env fuel s
    (p.depth ≤ fuel → ((∃ t, o = .ok () t) ↔ s.Fits (p, .value v)) ∧
      (¬s.Fits (p, .value v) → ∃ f t, o = .fault f t)) ∧
    ∀ t, o = .ok () t → s.Fits (p, .value v) ∧ ∃ bs, s.Destructures env p v t bs
  generalize (Job.pattern p v).run env fuel s = o at verdict deep ⊢
  cases o with
  | ok _ t =>
    obtain ⟨fits, bs, progress, denotes⟩ := verdict
    have fits := fits _ List.mem_cons_self
    refine ⟨fun _ => ⟨⟨fun _ => fits, fun _ => ⟨t, rfl⟩⟩, fun refused => absurd fits refused⟩, ?_⟩
    rintro t ⟨⟩
    exact ⟨fits, bs, .of_denotes inside distinct fresh progress denotes⟩
  | fault f t =>
    have refused : ¬s.Fits (p, .value v) := fun fits => verdict (List.forall_mem_singleton.2 fits)
    exact ⟨fun _ => ⟨⟨nofun, fun fits => absurd fits refused⟩, fun _ => ⟨f, t, rfl⟩⟩, nofun⟩
  | exhausted t =>
    exact ⟨fun enough => absurd (deep t rfl) (Nat.not_lt.2 enough), nofun⟩

def namePattern (x : String) : Pattern :=
  .identifier default ⟨x, default⟩

/-- The pattern `[a, , { length: b, ...c }, ...d]`. -/
def charactersPattern : Pattern :=
  .array default [some (namePattern "a"), none,
    some (.object default [⟨.static "length", namePattern "b"⟩] (some (namePattern "c"))),
    some (.rest default (namePattern "d"))]

/-- The pattern `[a, b = null]`. -/
def defaultPattern : Pattern :=
  .array default
    [some (namePattern "a"), some (.withDefault default (namePattern "b") (.null default))]

/-- The characters of a text in the root scope; the default takes the place of a missing one. -/
theorem destructuring_denotes_text :
    let s : State := { heap := {}, scopes := .new, realm := default }
    s.heap.Closed ∧ s.Orderly ∧ charactersPattern.Plain False ∧ defaultPattern.Plain True ∧
      (∃ t bs, (recursion 3).bind (.declare .let_) charactersPattern (.string "wxyz") Arena.root s =
          .ok () t ∧
        s.Fits (charactersPattern, .value (.string "wxyz")) ∧
        s.Destructures Arena.root charactersPattern (.string "wxyz") t bs ∧
        (t.scopes.record Arena.root).bindings.entries =
          [("a", ⟨.string "w", .let_⟩), ("b", ⟨.number 1.0, .let_⟩), ("c", ⟨.object ⟨0⟩, .let_⟩),
            ("d", ⟨.array ⟨0⟩, .let_⟩)] ∧
        (t.heap.object ⟨0⟩).props.entries = [("0", .string "y")] ∧
        t.heap.elements ⟨0⟩ = #[.string "z"]) ∧
      ∃ t, (Job.pattern defaultPattern (.string "x")).Binds Arena.root 3 [] s (.ok () t) ∧
        (t.scopes.record Arena.root).bindings.get? "b" = some ⟨.null, .let_⟩ := by
  intro s
  have closed : s.heap.Closed := by
    refine ⟨fun r v member => ?_, fun r v member => ?_, fun r f found => ?_, fun r there => ?_⟩
    · simp [s, Heap.elements] at member
    · simp [s, Heap.object, Table.values] at member
    · simp [s, Heap.function?] at found
    · exact absurd there (Nat.not_lt_zero _)
  have none (r : FunctionRef) (fn : Function) (η : Handle) (k : Nat) :
      ¬s.heap.ClosureAt r fn η k := by
    rintro ⟨f, found, -⟩
    simp [s, Heap.function?] at found
  have orderly : s.Orderly :=
    .fresh rfl rfl rfl (fun r fn η k there => absurd there (none r fn η k)) fun r fn η =>
      none r fn η _
  have name (allowed : Prop) (x : String) : (namePattern x).Plain allowed := .identifier ..
  have characters : charactersPattern.Plain False := by
    refine .array _ fun p member => ?_
    simp only [List.mem_cons, List.not_mem_nil, Option.some.injEq, reduceCtorEq, false_or, or_false]
      at member
    rcases member with rfl | rfl | rfl
    · exact name ..
    · refine .object _ (by simp [PatternProperty.text, PropertyKey.text?]) ?_ ?_
      · simpa using name False "b"
      · simpa using name False "c"
    · exact name ..
  have defaults : defaultPattern.Plain True := by
    refine .array _ fun p member => ?_
    simp only [List.mem_cons, List.not_mem_nil, Option.some.injEq, or_false] at member
    rcases member with rfl | rfl
    · exact name ..
    · exact .withDefault _ _ trivial (name ..)
  obtain ⟨t, done, names, rest, last⟩ : ∃ t, (recursion 3).bind (.declare .let_) charactersPattern
      (.string "wxyz") Arena.root s = .ok () t ∧
    (t.scopes.record Arena.root).bindings.entries =
      [("a", ⟨.string "w", .let_⟩), ("b", ⟨.number 1.0, .let_⟩), ("c", ⟨.object ⟨0⟩, .let_⟩),
        ("d", ⟨.array ⟨0⟩, .let_⟩)] ∧
    (t.heap.object ⟨0⟩).props.entries = [("0", .string "y")] ∧
    t.heap.elements ⟨0⟩ = #[.string "z"] := ⟨_, rfl, rfl, rfl, rfl⟩
  obtain ⟨t', done', null⟩ : ∃ t', (recursion 3).bind (.declare .let_) defaultPattern (.string "x")
    Arena.root s = .ok () t' ∧
      (t'.scopes.record Arena.root).bindings.get? "b" = some ⟨.null, .let_⟩ :=
    ⟨_, rfl, rfl⟩
  have distinct : charactersPattern.names.Nodup := by
    change ["a", "b", "c", "d"].Nodup
    decide
  have distinct' : defaultPattern.names.Nodup := by
    change ["a", "b"].Nodup
    decide
  obtain ⟨fits, bs, destructures⟩ :=
    ((destructuring_denotes (v := .string "wxyz") closed trivial orderly rfl
    distinct (fun _ _ => rfl) 3).1 characters).2 t done
  have binds := ((destructuring_denotes (v := .string "x") closed trivial orderly rfl distinct'
    (fun _ _ => rfl) 3).2 defaults _).1 done'
  exact ⟨closed, orderly, characters, defaults,
    ⟨t, bs, done, fits, destructures, names, rest, last⟩, t', binds, null⟩

end Scriptlet
