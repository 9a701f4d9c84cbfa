import Scriptlet.Proofs.Eval.Discipline
import Scriptlet.Proofs.Eval.Monad
import Scriptlet.Proofs.Tree.Declared

/-!
How a declaration gets from a pattern to its names.

The rules by which a pattern is bound step by step, from left to right. Main statement: `binds_iff`,
by which binding a plain pattern ends as the rules say and in no other way. A default is evaluated
by one rule only, for an undefined value, in a state in which all names to its left are bound.
-/

namespace Scriptlet

open Eval

namespace Eval

variable {env : ScopeId} {v : Value}

theorem bindName_let (x : String) (v : Value) (env : ScopeId) (s : State) :
    bindName (.declare .let_) x v env s =
      if s.scopes.binds env x then .fault { cause := .redeclared x } s
      else .ok () { s with scopes := s.scopes.bind env x ⟨v, .let_⟩ } := by
  obtain ⟨heap, scopes, realm, memory, depth, console⟩ := s
  simp only [bindName, Arena.declare, onScopes, Arena.declareOwn]
  by_cases there : scopes.binds env x = true
  · simp only [there, if_true]
  · simp only [there]
    rfl

/-- Properties are read without a change, those apart that functions come by. -/
theorem getProperty_eq {key : String} (ordinary : v.isNullish = false) (apart : key ≠ "prototype")
    (s : State) : getProperty v key s =
      .ok ((s.heap.get? v key).getD ((s.realm.methods.find? v key).getD .undefined)) s := by
  have read : getProperty v key = ownOrShared v key := by
    cases v with
    | undefined | null => cases ordinary
    | function r => rw [getProperty, if_neg apart]
    | _ => rfl
  rw [read]
  simp only [ownOrShared, gets]
  cases s.heap.get? v key <;> rfl

theorem iterate_cases (v : Value) (s : State) :
    (∃ items, iterate v s = .ok items s) ∨ ∃ f, iterate v s = .fault f s := by
  cases v with
  | array | string => exact .inl ⟨_, rfl⟩
  | _ => exact .inr ⟨_, rfl⟩

theorem propertyName_eq {r : Recursion} {p : PatternProperty} (known : p.key.text? = some p.text) :
    propertyName r p.key env = pure p.text := by
  obtain ⟨key, value⟩ := p
  cases key with
  | static | number => rfl
  | computed => cases known

/-- The value that an element of an array pattern goes with, if `items` are those from its place
on. -/
def elementValue (p : Pattern) (items : List Value) : Eval Value :=
  if Tree.isRest p then newArray items.toArray else return items.headD .undefined

/-- A new object with what is left of a value's own properties. -/
def remainder (v : Value) (used : List String) : Eval Value := do
  let left ← gets fun s => (s.heap.ownEntries v).filter fun e => !used.contains e.1
  let o ← newObject { props := .ofList left }
  return .object o

end Eval

/-- What is bound: a pattern to a value; the elements of an array pattern to the values from the
first one's place on; the properties of an object pattern, and its rest, to the value whose
properties they are. -/
inductive Job where
  | pattern (p : Pattern) (v : Value)
  | elements (es : List (Option Pattern)) (items : List Value)
  | properties (v : Value) (used : List String) (ps : List PatternProperty) (rest : Option Pattern)

namespace Job

variable {env : ScopeId} {n : Nat} {bound : List String} {s t u : State} {o : Outcome Unit}

/-- The names to declare. -/
def names : Job → List String
  | .pattern p _ => p.names
  | .elements es _ => Pattern.elementNames es
  | .properties _ _ ps rest => Pattern.propertyNames ps ++ Pattern.optionNames rest

/-- Declares the names in a scope. -/
def run (env : ScopeId) (fuel : Nat) : Job → Eval Unit
  | .pattern p v => (recursion fuel).bind (.declare .let_) p v env
  | .elements es items => bindElements (recursion fuel) (.declare .let_) env es items
  | .properties v used ps rest => do
    let used ← bindProperties (recursion fuel) (.declare .let_) v env used ps
    match rest with
    | none => return
    | some target =>
      let o ← remainder v used
      (recursion fuel).bind (.declare .let_) target o env

/-- Whether what is bound consists of plain patterns. -/
inductive Plain (defaults : Prop) : Job → Prop where
  | pattern {p : Pattern} (v : Value) : p.Plain defaults → Plain defaults (.pattern p v)
  | elements {es : List (Option Pattern)} (items : List Value) :
      (∀ p, some p ∈ es → p.inner.Plain defaults) → Plain defaults (.elements es items)
  | properties {v : Value} (used : List String) {ps : List PatternProperty}
      {rest : Option Pattern} :
      v.isNullish = false → (∀ p ∈ ps, p.key.text? = some p.text ∧ p.text ≠ "prototype") →
      (∀ p ∈ ps, p.value.Plain defaults) → (∀ p, rest = some p → p.Plain defaults) →
      Plain defaults (.properties v used ps rest)

namespace Plain

variable {defaults : Prop} {span : Span} {e rest : Option Pattern} {es : List (Option Pattern)}
  {p : Pattern} {q : PatternProperty} {ps : List PatternProperty} {items : List Value} {v : Value}
  {used : List String}

theorem array (plain : Plain defaults (.pattern (.array span es) v)) (items : List Value) :
    Plain defaults (.elements es items) := by
  rcases plain with ⟨_, plain⟩
  rcases plain with _ | ⟨_, plain⟩
  exact .elements items plain

theorem object (plain : Plain defaults (.pattern (.object span ps rest) v))
    (ordinary : v.isNullish = false) :
    Plain defaults (.properties v [] ps rest) := by
  rcases plain with ⟨_, plain⟩
  rcases plain with _ | _ | ⟨_, keys, plain, others⟩
  exact .properties [] ordinary keys plain others

theorem withDefault {target : Pattern} {d : Expr}
    (plain : Plain defaults (.pattern (.withDefault span target d) v)) (w : Value) :
    defaults ∧ Plain defaults (.pattern target w) := by
  rcases plain with ⟨_, plain⟩
  rcases plain with _ | _ | _ | ⟨_, _, allowed, plain⟩
  exact ⟨allowed, .pattern w plain⟩

theorem element (plain : Plain defaults (.elements (some p :: es) items)) (w : Value) :
    Plain defaults (.pattern p.inner w) := by
  rcases plain with _ | ⟨_, plain⟩
  exact .pattern w (plain p List.mem_cons_self)

theorem elements_tail (plain : Plain defaults (.elements (e :: es) items)) (later : List Value) :
    Plain defaults (.elements es later) := by
  rcases plain with _ | ⟨_, plain⟩
  exact .elements later fun p member => plain p (List.mem_cons_of_mem _ member)

theorem ordinary (plain : Plain defaults (.properties v used ps rest)) : v.isNullish = false := by
  rcases plain with _ | _ | ⟨_, ordinary, _, _, _⟩
  exact ordinary

theorem key (plain : Plain defaults (.properties v used (q :: ps) rest)) :
    q.key.text? = some q.text ∧ q.text ≠ "prototype" := by
  rcases plain with _ | _ | ⟨_, _, keys, _, _⟩
  exact keys q List.mem_cons_self

theorem property (plain : Plain defaults (.properties v used (q :: ps) rest)) (w : Value) :
    Plain defaults (.pattern q.value w) := by
  rcases plain with _ | _ | ⟨_, _, _, plain, _⟩
  exact .pattern w (plain q List.mem_cons_self)

theorem properties_tail (plain : Plain defaults (.properties v used (q :: ps) rest))
    (later : List String) :
    Plain defaults (.properties v later ps rest) := by
  rcases plain with _ | _ | ⟨_, ordinary, keys, plain, others⟩
  exact .properties later ordinary (fun q member => keys q (List.mem_cons_of_mem _ member))
    (fun q member => plain q (List.mem_cons_of_mem _ member)) others

theorem others (plain : Plain defaults (.properties v used [] (some p))) (w : Value) :
    Plain defaults (.pattern p w) := by
  rcases plain with _ | _ | ⟨_, _, _, _, others⟩
  exact .pattern w (others p rfl)

end Plain

/-- How a job ends that is begun with the names `bound` declared. The names to the left of what is
nested are passed on to it. -/
inductive Binds (env : ScopeId) : Nat → List String → Job → State → Outcome Unit → Prop where
  | spent {bound p v s} : Binds env 0 bound (.pattern p v) s (.exhausted s)
  | name {n bound span x v s} : Binds env (n + 1) bound (.pattern (.identifier span x) v) s
      (located x.span (bindName (.declare .let_) x.text v env) s)
  /-- A value that is not undefined is bound as it is. -/
  | given {n bound span target d v s o} : v.isUndefined = false →
      Binds env n bound (.pattern target v) s o →
      Binds env (n + 1) bound (.pattern (.withDefault span target d) v) s o
  /-- In place of an undefined value there is the value of the default. -/
  | default {n bound span target d w s t o} : (∀ x ∈ bound, s.scopes.binds env x = true) →
      named (recursion n) d env (givenName target) s = .ok w t →
      Binds env n bound (.pattern target w) t o →
      Binds env (n + 1) bound (.pattern (.withDefault span target d) .undefined) s o
  | defaultFault {n bound span target d f s t} : (∀ x ∈ bound, s.scopes.binds env x = true) →
      named (recursion n) d env (givenName target) s = .fault f t →
      Binds env (n + 1) bound (.pattern (.withDefault span target d) .undefined) s (.fault f t)
  | defaultSpent {n bound span target d s t} : (∀ x ∈ bound, s.scopes.binds env x = true) →
      named (recursion n) d env (givenName target) s = .exhausted t →
      Binds env (n + 1) bound (.pattern (.withDefault span target d) .undefined) s (.exhausted t)
  | array {n bound span es v items s o} : iterate v s = .ok items s →
      Binds env n bound (.elements es items) s o →
      Binds env (n + 1) bound (.pattern (.array span es) v) s o
  | arrayRefused {n bound span es v f s} : iterate v s = .fault f s →
      Binds env (n + 1) bound (.pattern (.array span es) v) s (.fault (f.located span) s)
  | object {n bound span ps rest v s o} : v.isNullish = false →
      Binds env n bound (.properties v [] ps rest) s o →
      Binds env (n + 1) bound (.pattern (.object span ps rest) v) s o
  | objectRefused {n bound span ps rest v s} : v.isNullish = true →
      Binds env (n + 1) bound (.pattern (.object span ps rest) v) s
        (located span (typeFault (.cannotDestructure (s.heap.text v))) s)
  | noElements {n bound items s} : Binds env n bound (.elements [] items) s (.ok () s)
  | elision {n bound es items s o} : Binds env n bound (.elements es items.tail) s o →
      Binds env n bound (.elements (none :: es) items) s o
  | element {n bound p es items w s t u o} : elementValue p items s = .ok w t →
      Binds env n bound (.pattern p.inner w) t (.ok () u) →
      Binds env n (bound ++ p.names) (.elements es items.tail) u o →
      Binds env n bound (.elements (some p :: es) items) s o
  | elementStops {n bound p es items w s t o} : elementValue p items s = .ok w t →
      Binds env n bound (.pattern p.inner w) t o → (∀ u, o ≠ .ok () u) →
      Binds env n bound (.elements (some p :: es) items) s o
  | property {n bound p v used ps rest w s t o} : p.key.text? = some p.text →
      getProperty v p.text s = .ok w s →
      Binds env n bound (.pattern p.value w) s (.ok () t) →
      Binds env n (bound ++ p.value.names) (.properties v (p.text :: used) ps rest) t o →
      Binds env n bound (.properties v used (p :: ps) rest) s o
  | propertyStops {n bound p v used ps rest w s o} : p.key.text? = some p.text →
      getProperty v p.text s = .ok w s →
      Binds env n bound (.pattern p.value w) s o → (∀ u, o ≠ .ok () u) →
      Binds env n bound (.properties v used (p :: ps) rest) s o
  | noRest {n bound v used s} : Binds env n bound (.properties v used [] none) s (.ok () s)
  | rest {n bound v used target w s t o} : remainder v used s = .ok w t →
      Binds env n bound (.pattern target w) t o →
      Binds env n bound (.properties v used [] (some target)) s o

/-! ### Names that are bound -/

/-- An orderly state in which a scope runs and binds names. -/
structure Ready (env : ScopeId) (bound : List String) (s : State) : Prop where
  orderly : s.Orderly
  running : (s.scopes.record env).phase = .running
  bound : ∀ x ∈ bound, s.scopes.binds env x = true

/-- Names stay bound in a scope that runs on. -/
theorem Ready.settled (ready : Ready env bound s) (settled : t.Orderly ∧ s.Settled t) :
    Ready env bound t :=
  ⟨settled.1, settled.2.grown.running ready.running,
    fun x member => settled.2.grown.names env x ready.running (ready.bound x member)⟩

theorem Ready.allocated (ready : Ready env bound s) : (s.scopes.record env).phase ≠ .free := by
  rw [ready.running]
  nofun

theorem Ready.declared {span : Span} {x : String} {v : Value} (ready : Ready env bound s)
    (done : located span (bindName (.declare .let_) x v env) s = .ok () t) :
    Ready env (bound ++ [x]) t := by
  have ran := bindName_let x v env s
  split at ran
  next => rw [located_fault ran] at done; cases done
  next new =>
    rw [located_ok ran] at done
    cases done
    have none : (s.scopes.record env).bindings.get? x = none := by
      simpa [Arena.binds, Table.contains] using new
    have step : s.scopes.Edit (fun _ => True) (s.scopes.bind env x ⟨v, .let_⟩) :=
      .declare _ trivial none
    have kept := ready.settled (ready.orderly.edit step)
    refine ⟨kept.orderly, kept.running, fun y member => ?_⟩
    rcases List.mem_append.1 member with old | here
    · exact kept.bound y old
    · cases List.mem_singleton.1 here
      have inside := Arena.lt_size_of_allocated ready.allocated
      simp [Arena.binds, Table.contains, Arena.bindings_bind_self inside]

/-- Whatever a default does, no name is lost. -/
theorem Ready.named {e : Expr} {name : Option String} {w : Value} (ready : Ready env bound s)
    (done : Eval.named (recursion n) e env name s = .ok w t) : Ready env bound t := by
  have sat : (discipline s.scopes).Sat env ∅ (Eval.named (recursion n) e env name)
      (Eval.named (recursion n) e env name) :=
        Contract.sat_named (Contract.fits_recursion n) trivial name
  have ends := sat.ends ⟨ready.orderly, .refl _⟩ ready.running (Set.empty_subset _)
  rw [done] at ends
  exact ready.settled ⟨ends.1.1, ends.2.1⟩

/-- What an element is matched with is there, or is a new array. -/
theorem Ready.element {p : Pattern} {items : List Value} {w : Value} (ready : Ready env bound s)
    (made : elementValue p items s = .ok w t) : Ready env bound t := by
  unfold elementValue at made
  split at made
  · cases made
    exact ready.settled (ready.orderly.heap (.refl _))
  · cases made
    exact ready

theorem Ready.remainder {v w : Value} {used : List String} (ready : Ready env bound s)
    (made : Eval.remainder v used s = .ok w t) : Ready env bound t := by
  cases made
  exact ready.settled (ready.orderly.heap (.refl _))

/-- The names of a job are bound when it has been done, and so are those that were bound before. -/
theorem Binds.ready {job : Job} (binds : Binds env n bound job s o) (done : o = .ok () t)
    (ready : Ready env bound s) : Ready env (bound ++ job.names) t := by
  induction binds generalizing t with
  | spent | defaultFault | defaultSpent | arrayRefused => cases done
  | objectRefused => simp [located, typeFault, raise] at done
  | name => exact ready.declared done
  | given _ _ ih => exact ih done ready
  | default _ ran _ ih => exact ih done (ready.named ran)
  | array _ _ ih => exact ih done ready
  | object _ _ ih => exact ih done ready
  | noElements =>
    cases done
    simpa [Job.names, Pattern.elementNames] using ready
  | elision _ ih => exact ih done ready
  | @element _ _ p _ _ _ _ _ _ _ made _ _ first later =>
    have here := first rfl (ready.element made)
    rw [Job.names, Pattern.names_inner] at here
    have all := later done here
    rwa [List.append_assoc] at all
  | elementStops _ _ stops => exact absurd done (stops _)
  | property _ _ _ _ first later =>
    have all := later done (first rfl ready)
    rw [List.append_assoc] at all
    rwa [Job.names, Pattern.propertyNames_cons, List.append_assoc]
  | propertyStops _ _ _ stops => exact absurd done (stops _)
  | noRest =>
    cases done
    simpa [Job.names, Pattern.propertyNames, Pattern.optionNames] using ready
  | rest made _ ih => exact ih done (ready.remainder made)

/-! ### Runs -/

theorem run_element (p : Pattern) (es : List (Option Pattern)) (items : List Value) :
    (Job.elements (some p :: es) items).run env n = (do
      let w ← elementValue p items
      (Job.pattern p.inner w).run env n
      (Job.elements es items.tail).run env n) := by
  cases p <;> rfl

theorem run_property {p : PatternProperty} {v w : Value} {used : List String}
    {ps : List PatternProperty}
    {rest : Option Pattern} (known : p.key.text? = some p.text)
    (read : getProperty v p.text s = .ok w s) :
    (Job.properties v used (p :: ps) rest).run env n s = (do
      (Job.pattern p.value w).run env n
      (Job.properties v (p.text :: used) ps rest).run env n) s := by
  simp only [Job.run, bindProperties, propertyName_eq known, pure_bind, bind_assoc]
  exact bind_of_ok read

theorem run_object {span : Span} {ps : List PatternProperty} {rest : Option Pattern} {v : Value}
    (ordinary : v.isNullish = false) :
    (Job.pattern (.object span ps rest) v).run env (n + 1) s =
      (Job.properties v [] ps rest).run env n s := by
  change bindPattern (recursion n) _ (.object span ps rest) v env s = _
  simp only [bindPattern, ordinary, Job.run]
  rfl

theorem run_refused {span : Span} {ps : List PatternProperty} {rest : Option Pattern} {v : Value}
    (nullish : v.isNullish = true) : (Job.pattern (.object span ps rest) v).run env (n + 1) s =
      located span (typeFault (.cannotDestructure (s.heap.text v))) s := by
  change bindPattern (recursion n) _ (.object span ps rest) v env s = _
  simp only [bindPattern, nullish]
  rfl

theorem run_default {span : Span} {target : Pattern} {d : Expr} :
    (Job.pattern (.withDefault span target d) .undefined).run env (n + 1) = (do
      let w ← named (recursion n) d env (givenName target)
      (Job.pattern target w).run env n) :=
  rfl

theorem run_given {span : Span} {target : Pattern} {d : Expr} {v : Value}
    (defined : v.isUndefined = false) :
    (Job.pattern (.withDefault span target d) v).run env (n + 1) =
      (Job.pattern target v).run env n := by
  change (do let w ← if v.isUndefined then named (recursion n) d env (givenName target) else pure v
             (Job.pattern target w).run env n) = _
  rw [defined]
  rfl

theorem run_array {span : Span} {es : List (Option Pattern)} {v : Value} :
    (Job.pattern (.array span es) v).run env (n + 1) = (do
      let items ← located span (iterate v)
      (Job.elements es items).run env n) :=
  rfl

theorem run_rest {v : Value} {used : List String} {target : Pattern} :
    (Job.properties v used [] (some target)).run env n = (do
      let w ← remainder v used
      (Job.pattern target w).run env n) :=
  rfl

section

variable {es : List (Option Pattern)} {items : List Value} {v : Value} {used : List String}
  {ps : List PatternProperty} {rest : Option Pattern} {p : Pattern}

theorem binds_elements
    (nested : ∀ bound p v s, Plain True (.pattern p v) → Ready env bound s →
      Binds env n bound (.pattern p v) s ((Job.pattern p v).run env n s))
    (plain : Plain True (.elements es items)) (ready : Ready env bound s) :
    Binds env n bound (.elements es items) s ((Job.elements es items).run env n s) := by
  induction es generalizing bound items s with
  | nil => exact .noElements
  | cons e es ih =>
    cases e with
    | none => exact .elision (ih (plain.elements_tail _) ready)
    | some p =>
      obtain ⟨w, t, made⟩ : ∃ w t, elementValue p items s = .ok w t := by
        unfold elementValue
        split
        · exact ⟨_, _, rfl⟩
        · exact ⟨_, _, rfl⟩
      have ready := ready.element made
      have here := nested bound p.inner w t (plain.element w) ready
      rw [run_element, bind_of_ok made]
      rcases ok_or_stops ((Job.pattern p.inner w).run env n t) with ⟨u, done⟩ | stops
      · have after := here.ready done ready
        rw [done] at here
        rw [Job.names, Pattern.names_inner] at after
        rw [bind_of_ok done]
        exact .element made here (ih (plain.elements_tail _) after)
      · rw [bind_of_stops rfl stops]
        exact .elementStops made here stops

theorem binds_properties
    (nested : ∀ bound p v s, Plain True (.pattern p v) → Ready env bound s →
      Binds env n bound (.pattern p v) s ((Job.pattern p v).run env n s))
    (plain : Plain True (.properties v used ps rest)) (ready : Ready env bound s) :
    Binds env n bound (.properties v used ps rest) s
      ((Job.properties v used ps rest).run env n s) := by
  induction ps generalizing bound used s with
  | nil =>
    cases rest with
    | none => exact .noRest
    | some target =>
      obtain ⟨w, t, made⟩ : ∃ w t, remainder v used s = .ok w t := ⟨_, _, rfl⟩
      rw [run_rest, bind_of_ok made]
      exact .rest made (nested bound target w t (plain.others w) (ready.remainder made))
  | cons p ps ih =>
    obtain ⟨known, apart⟩ := plain.key
    obtain ⟨w, read⟩ : ∃ w, getProperty v p.text s = .ok w s :=
      ⟨_, getProperty_eq plain.ordinary apart s⟩
    have here := nested bound p.value w s (plain.property w) ready
    rw [run_property known read]
    rcases ok_or_stops ((Job.pattern p.value w).run env n s) with ⟨u, done⟩ | stops
    · have after := here.ready done ready
      rw [done] at here
      rw [bind_of_ok done]
      exact .property known read here (ih (plain.properties_tail _) after)
    · rw [bind_of_stops rfl stops]
      exact .propertyStops known read here stops

theorem binds_pattern (plain : Plain True (.pattern p v)) (ready : Ready env bound s) :
    Binds env n bound (.pattern p v) s ((Job.pattern p v).run env n s) := by
  induction n generalizing bound p v s with
  | zero => exact .spent
  | succ n ih =>
    have nested bound p v s (plain : Plain True (.pattern p v)) (ready : Ready env bound s) :=
      @ih bound s v p plain ready
    cases p with
    | identifier span name => exact .name
    | array span es =>
      rw [run_array]
      rcases iterate_cases v s with ⟨items, read⟩ | ⟨f, refused⟩
      · rw [bind_of_ok (located_ok read)]
        exact .array read (binds_elements nested (plain.array items) ready)
      · rw [bind_of_fault (located_fault refused)]
        exact .arrayRefused refused
    | object span ps rest =>
      cases nullish : v.isNullish with
      | true =>
        rw [run_refused nullish]
        exact .objectRefused nullish
      | false =>
        rw [run_object nullish]
        exact .object nullish (binds_properties nested (plain.object nullish) ready)
    | withDefault span target d =>
      cases undefined : v.isUndefined with
      | false =>
        rw [run_given undefined]
        exact .given undefined (ih (plain.withDefault v).2 ready)
      | true =>
        obtain rfl : v = .undefined := by cases v <;> first | rfl | cases undefined
        rw [run_default]
        cases ran : named (recursion n) d env (givenName target) s with
        | ok w t =>
          rw [bind_of_ok ran]
          exact .default ready.bound ran (ih (plain.withDefault w).2 (ready.named ran))
        | fault f t =>
          rw [bind_of_fault ran]
          exact .defaultFault ready.bound ran
        | exhausted t =>
          rw [bind_of_exhausted ran]
          exact .defaultSpent ready.bound ran
    | rest | member =>
      rcases plain with ⟨_, plain⟩
      cases plain

end

theorem binds_run {job : Job} (plain : job.Plain True) (ready : Ready env bound s) :
    Binds env n bound job s (job.run env n s) := by
  cases job with
  | pattern => exact binds_pattern plain ready
  | elements => exact binds_elements (fun _ _ _ _ => binds_pattern) plain ready
  | properties => exact binds_properties (fun _ _ _ _ => binds_pattern) plain ready

/-- A job ends in the only way in which the rules let it end. -/
theorem Binds.run_eq {job : Job} (binds : Binds env n bound job s o) : job.run env n s = o := by
  induction binds with
  | spent | name | noElements | noRest => rfl
  | given defined _ ih =>
    rw [run_given defined]
    exact ih
  | default _ ran _ ih =>
    rw [run_default, bind_of_ok ran]
    exact ih
  | defaultFault _ ran => rw [run_default, bind_of_fault ran]
  | defaultSpent _ ran => rw [run_default, bind_of_exhausted ran]
  | array read _ ih =>
    rw [run_array, bind_of_ok (located_ok read)]
    exact ih
  | arrayRefused refused => rw [run_array, bind_of_fault (located_fault refused)]
  | object ordinary _ ih =>
    rw [run_object ordinary]
    exact ih
  | objectRefused nullish => exact run_refused nullish
  | elision _ ih => exact ih
  | element made _ _ first later =>
    rw [run_element, bind_of_ok made, bind_of_ok first]
    exact later
  | elementStops made _ stops ih =>
    rw [run_element, bind_of_ok made]
    exact bind_of_stops ih stops
  | property known read _ _ first later =>
    rw [run_property known read, bind_of_ok first]
    exact later
  | propertyStops known read _ stops ih =>
    rw [run_property known read]
    exact bind_of_stops ih stops
  | rest made _ ih =>
    rw [run_rest, bind_of_ok made]
    exact ih

/-- The rules say how a job of plain patterns ends. -/
theorem binds_iff {job : Job} (plain : job.Plain True) (ready : Ready env bound s) :
    Binds env n bound job s o ↔ job.run env n s = o := by
  refine ⟨Binds.run_eq, ?_⟩
  rintro rfl
  exact binds_run plain ready

end Job

end Scriptlet
