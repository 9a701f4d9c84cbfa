import Scriptlet.Eval.Expression
import Scriptlet.Eval.Statement
import Scriptlet.Proofs.Eval.Values

/-!
The constructs of the language satisfy every contract.

For each part of the evaluator: if what is nested in a construct is evaluated as a contract asks,
then so is the construct. The parts of programs that may be met are passed down from a construct to
what is nested in it.
-/

namespace Scriptlet

instance : Mentions Eval.Reference where
  mentions
    | .binding _ => ∅
    | .property object _ => Mentions.mentions object

namespace Known

variable {k : Knowledge}

instance referenceToName (name : Name) :
    Known k (Eval.Reference.binding name) := ⟨Set.empty_subset k⟩

instance referenceToProperty (object : Value) (key : String) [known : Known k object] :
    Known k (Eval.Reference.property object key) :=
  ⟨known.subset⟩

end Known

/-! ### Arrays that are made without a look at their length -/

/-- The rests that a list of patterns takes from `count` values can be arrays. -/
def RestsFit (elements : List (Option Pattern)) (count : Nat) : Prop :=
  ∀ i span target, elements[i]? = some (some (.rest span target)) →
    count - i ≤ Value.maxArrayLength

namespace RestsFit

variable {elements : List (Option Pattern)} {count : Nat}

theorem of_le (short : count ≤ Value.maxArrayLength) : RestsFit elements count :=
  fun _ _ _ _ => (Nat.sub_le ..).trans short

theorem head {span : Span} {target : Pattern}
    (rests : RestsFit (some (.rest span target) :: elements) count) :
    count ≤ Value.maxArrayLength :=
  rests 0 span target rfl

theorem tail {element : Option Pattern} (rests : RestsFit (element :: elements) count) :
    RestsFit elements (count - 1) := by
  intro i span target there
  have rest := rests (i + 1) span target there
  omega

end RestsFit

/-- The arrays that a function makes of `count` arguments are not too long. -/
structure Function.Takes (fn : Function) (count : Nat) : Prop where
  arguments : fn.isArrow = false → count ≤ Value.maxArrayLength
  rests : RestsFit (fn.params.map some) count

/-- The arrays that a pattern makes of the characters of a text are not too long; other values have
few enough elements. -/
def Pattern.Takes (p : Pattern) (v : Value) : Prop :=
  match p, v with
  | .array _ elements, .string text => RestsFit elements text.length
  | _, _ => True

def Expr.isArray : Expr → Bool
  | .array _ _ => true
  | _ => false

namespace Contract

open Eval

variable {C : Contract} [lawful : C.Lawful] {r w : Recursion} {env : ScopeId} {k : Knowledge}

/-! ### Functions -/

theorem sat_closure {fn : Function} (fine : C.fine (.function fn)) (name : Option String) :
    C.Sat env k (closure fn env name) (closure fn env name) := by
  refine .plain ?_
  intro s sound live _
  obtain ⟨sound', kept⟩ := lawful.closure s (((fn.name.map (·.text)).or name).getD "") fn env
    sound live fine
  exact ⟨sound', kept, trivial, Known.function _⟩

theorem sat_functionExpression {fn : Function} (fine : C.fine (.function fn)) :
    C.Sat env k (functionExpression fn env) (functionExpression fn env) := by
  unfold functionExpression
  split
  · exact .inScope fun scope => .bind (sat_closure fine none) fun f _ =>
      .bind (.onScopes (Arena.editing_declareOwn ..)) fun _ _ => .ok
  · exact sat_closure fine none

theorem sat_hoistFunctions {body : List Stmt} (fine : ∀ st ∈ body, C.fine (.stmt st)) :
    C.Sat env k (hoistFunctions env body) (hoistFunctions env body) := by
  induction body generalizing k with
  | nil => exact .ok
  | cons st rest ih =>
    have later {told : Knowledge} :=
      @ih told fun st member => fine st (List.mem_cons_of_mem _ member)
    cases st with
    | function span fn =>
      have place : C.Place span := place_stmt (fine _ List.mem_cons_self)
      have here : C.fine (.function fn) :=
        lawful.child _ (fine _ List.mem_cons_self) (by simp [Runs]) _
          (by simp [Node.children, Stmt.nodes])
      unfold hoistFunctions
      split
      · exact .bind (sat_closure here none) fun f _ =>
          .bind (.located place (.onScopes (Arena.editing_declareFunction ..))) fun _ _ => later
      · exact later
    | _ => exact later

section Fits

variable (fits : C.Fits r w)
include fits

theorem sat_named {e : Expr} (fine : C.fine (.expr e)) (name : Option String) :
    C.Sat env k (named r e env name) (named w e env name) := by
  have nested : C.Sat env k (r.expr e env) (w.expr e env) := fits.expr e env fine
  cases e with
  | function span fn =>
    refine .ite (fun _ => sat_closure ?_ name) fun _ => nested
    exact lawful.child _ fine (runs_function span fn) _ (by simp [Node.children, Expr.nodes])
  | _ => exact nested

theorem sat_sequence {body : List Stmt} (fine : ∀ st ∈ body, C.fine (.stmt st)) (last : Value)
    [Known k last] : C.Sat env k (sequence r env last body) (sequence w env last body) := by
  induction body generalizing last k with
  | nil => exact .ok
  | cons st rest ih =>
    apply Sat.bind (fits.stmt st env (fine st List.mem_cons_self))
    intro c _
    split
    · exact ih (fun st member => fine st (List.mem_cons_of_mem _ member)) _
    · exact .ok

theorem sat_statements {body : List Stmt} (fine : ∀ st ∈ body, C.fine (.stmt st)) :
    C.Sat env k (statements r body env) (statements w body env) :=
  .bind (sat_hoistFunctions fine) fun _ _ => sat_sequence fits fine _

theorem sat_bindParameters {params : List Pattern} {args : List Value} [Known k args]
    (fine : ∀ p ∈ params, C.fine (.pattern (.declare .var) p))
    (rests : C.bounded → RestsFit (params.map some) args.length) :
    C.Sat env k (bindParameters r env params args) (bindParameters w env params args) := by
  induction params generalizing args k with
  | nil => exact .ok
  | cons p rest ih =>
    have here := fine p List.mem_cons_self
    have later {told : Knowledge} {args : List Value} [Known told args] :=
      @ih told args inferInstance fun p member => fine p (List.mem_cons_of_mem _ member)
    cases p with
    | rest span target =>
      have inner : C.fine (.pattern (.declare .var) target) :=
        lawful.child _ here (by simp [Runs]) _ (by simp [Node.children, Pattern.nodes])
      exact .bind (.newArray _ fun bounded => (rests bounded).head) fun _ _ =>
        .bind (fits.bind _ _ _ _ inner) fun _ _ => later fun _ => .of_le (Nat.zero_le _)
    | _ =>
      exact .bind (fits.bind _ _ _ _ here) fun _ _ => later fun bounded => by
        simpa using (rests bounded).tail

theorem sat_functionBody {fn : Function} (fine : C.fine (.function fn)) :
    C.Sat env k (functionBody r fn env) (functionBody w fn env) := by
  have inside := lawful.child _ fine (by simp [Runs])
  unfold functionBody
  split
  · rename_i e same
    exact fits.expr e env
      (inside _ (by simp [Node.children, Function.nodes, same, FunctionBody.nodes]))
  · rename_i body same
    refine .bind (sat_statements fits fun st member => inside _ ?_) fun c _ => ?_
    · simp [Node.children, Function.nodes, same, FunctionBody.nodes, member]
    · split
      · exact .ok
      · exact .ok

theorem sat_invoke {fn : Function} (fine : C.fine (.function fn)) (receiver : Value)
    (args : List Value) [Known k receiver] [Known k args]
    (takes : C.bounded → fn.Takes args.length) :
    C.Sat env k (invoke r fn receiver args env) (invoke w fn receiver args env) := by
  have params : ∀ p ∈ fn.params, C.fine (.pattern (.declare .var) p) := fun p member =>
    lawful.child _ fine (by simp [Runs]) _ (by simp [Node.children, Function.nodes, member])
  have rests (bounded : C.bounded) := (takes bounded).rests
  refine .ite (fun _ => ?_) fun listed => ?_
  · exact .bind (sat_bindParameters fits params rests) fun _ _ => fits.body fn env fine
  · have sized (bounded : C.bounded) : args.toArray.size ≤ Value.maxArrayLength :=
      (takes bounded).arguments (Bool.eq_false_iff.2 listed)
    refine .bind (.newArray _ sized) fun all _ => .bind (.onScopes (Arena.editing_declareOwn ..)) ?_
    intro _ _
    apply Sat.bind (sat_bindParameters fits params rests)
    intro _ _
    exact .bind (.discard (.onScopes (Arena.editing_declareVar ..))) fun _ _ =>
      fits.body fn env fine

theorem sat_construct (callee : Value) (args : List Value) [Known k args] :
    C.Sat env k (construct r callee args) (construct w callee args) := by
  have refuse {told : Knowledge} : C.Sat env told
      (do typeFault (.notConstructor (← Eval.gets (·.heap.inspect callee))) : Eval Value)
      (do typeFault (.notConstructor (← Eval.gets (·.heap.inspect callee)))) :=
    .bind (.gets _) fun _ _ => .typeFault _
  unfold construct
  cases callee with
  | function f =>
    refine .bind (.gets _) fun made _ => .ite (fun _ => refuse) ?_
    intro _
    apply Sat.bind (sat_functionPrototype f)
    intro p _
    refine .bind (@Sat.newObject C lawful env _ _ (@Known.newObject _ _ _ inferInstance ?_)) ?_
    · split
      · exact Known.some_iff.2 ⟨Known.told.subset⟩
      · infer_instance
    intro o _
    exact .bind (fits.call ..) fun _ _ => .ok
  | _ => exact refuse

/-! ### Patterns -/

omit fits in
theorem sat_unsupported {α : Type} [Mentions α] {Q : α → Prop} {n : Node} (fine : C.fine n)
    (runs : C.Runs n)
    (stuck : n.executable = false) (label : String) {span : Span} (place : C.Place span) :
    C.Sat env k (unsupported label span : Eval α) (unsupported label span) Q := by
  refine .located place (.plain fun s sound _ _ => ⟨sound, lawful.refl s, ?_, ⟨Set.empty_subset _⟩⟩)
  rcases lawful.stuck n fine runs with rule | raised
  · simp [stuck] at rule
  · exact raised label

theorem sat_memberKey {key : MemberKey} (fine : ∀ n ∈ key.nodes, C.fine n) :
    C.Sat env k (memberKey r key env) (memberKey w key env) := by
  cases key with
  | static name => exact .ok
  | computed e =>
    exact .bind (fits.expr e env (fine _ (by simp [MemberKey.nodes]))) fun v _ => sat_toKey fits v

theorem sat_propertyName {key : PropertyKey} (fine : ∀ n ∈ key.nodes, C.fine n) :
    C.Sat env k (propertyName r key env) (propertyName w key env) := by
  cases key with
  | static text => exact .ok
  | number x => exact .ok
  | computed e =>
    exact .bind (fits.expr e env (fine _ (by simp [PropertyKey.nodes]))) fun v _ => sat_toKey fits v

omit fits in
theorem sat_bindName (mode : BindMode) (name : String) (v : Value) [Known k v] :
    C.Sat env k (bindName mode name v env) (bindName mode name v env) := by
  cases mode with
  | assign => exact .onScopes (Arena.editing_write ..)
  | declare kind =>
    cases kind with
    | var => exact .onScopes (Arena.editing_initVar ..)
    | let_ => exact .onScopes (Arena.editing_declare ..)
    | const => exact .onScopes (Arena.editing_declare ..)

theorem sat_bindElements {mode : BindMode} {elements : List (Option Pattern)} {items : List Value}
    [Known k items] (fine : ∀ p, some p ∈ elements → C.fine (.pattern mode p))
    (rests : C.bounded → RestsFit elements items.length) :
    C.Sat env k (bindElements r mode env elements items)
      (bindElements w mode env elements items) := by
  induction elements generalizing items k with
  | nil => exact .ok
  | cons element rest ih =>
    have later {told : Knowledge} {items : List Value} [Known told items] :=
      @ih told items inferInstance fun p member => fine p (List.mem_cons_of_mem _ member)
    have fewer (bounded : C.bounded) : RestsFit rest items.tail.length := by
      simpa using (rests bounded).tail
    cases element with
    | none => exact later fewer
    | some p =>
      have here := fine p List.mem_cons_self
      cases p with
      | rest span target =>
        have inner : C.fine (.pattern mode target) :=
          lawful.child _ here (by simp [Runs]) _ (by simp [Node.children, Pattern.nodes])
        exact .bind (.newArray _ fun bounded => (rests bounded).head) fun _ _ =>
          .bind (fits.bind _ _ _ _ inner) fun _ _ => later fewer
      | _ => exact .bind (fits.bind _ _ _ _ here) fun _ _ => later fewer

theorem sat_bindProperties {mode : BindMode} {properties : List PatternProperty}
    (fine : ∀ n ∈ properties.flatMap (PatternProperty.nodes mode), C.fine n) (v : Value)
    (used : List String) :
    C.Sat env k (bindProperties r mode v env used properties)
      (bindProperties w mode v env used properties) := by
  induction properties generalizing used k with
  | nil => exact .ok
  | cons p rest ih =>
    simp only [List.flatMap_cons, PatternProperty.nodes, List.mem_append, List.mem_singleton]
      at fine
    refine .bind (sat_propertyName fits fun n member => fine n (.inl (.inl member))) ?_
    intro key _
    apply Sat.bind (sat_getProperty ..)
    intro value _
    apply Sat.bind (fits.bind _ _ _ _ (fine _ (.inl (.inr rfl))))
    intro _ _
    exact ih (fun n member => fine n (.inr member)) _

theorem sat_bindPattern {mode : BindMode} {p : Pattern} (fine : C.fine (.pattern mode p))
    (v : Value) [Known k v] (takes : C.bounded → p.Takes v) :
    C.Sat env k (bindPattern r mode p v env) (bindPattern w mode p v env) := by
  have inside := lawful.child _ fine (by simp [Runs])
  have place := place_pattern fine
  simp only [Node.children] at inside
  cases p with
  | identifier span name => exact .located ⟨_, fine, by simp [Node.spans]⟩ (sat_bindName ..)
  | member span object key =>
    cases mode with
    | assign =>
      apply Sat.bind (fits.expr object env (inside _ (by simp [Pattern.nodes])))
      intro o _
      refine .bind (sat_memberKey fits fun n member => inside n ?_) fun k _ => ?_
      · simp [Pattern.nodes, member]
      · exact .located place (sat_setProperty ..)
    | declare kind => exact sat_unsupported fine (by simp [Runs]) rfl _ place
  | withDefault span target default =>
    have target : C.fine (.pattern mode target) := inside _ (by simp [Pattern.nodes])
    refine .ite (fun _ => ?_) fun _ => .bind .ok fun _ _ => fits.bind _ _ _ _ target
    exact .bind (sat_named fits (inside _ (by simp [Pattern.nodes])) _) fun _ _ =>
      fits.bind _ _ _ _ target
  | array span elements =>
    apply Sat.bind (.located place (sat_iterate v))
    intro items spreads
    refine sat_bindElements fits (fun p member => inside _ (by simp [Pattern.nodes, member])) ?_
    intro bounded
    have takes := takes bounded
    have spreads := spreads bounded
    cases v with
    | string text => exact spreads ▸ takes
    | _ => exact .of_le spreads
  | object span properties rest =>
    refine .ite (fun _ => ?_) fun _ => ?_
    · exact .located place (.bind (.gets _) fun _ _ => .typeFault _)
    · refine .bind (sat_bindProperties fits (fun n member => inside n ?_) v []) fun used _ => ?_
      · exact List.mem_append_left _ member
      cases rest with
      | none => exact .ok
      | some target =>
        refine .bind (.gets _) fun left _ => .bind (.newObject _) ?_
        intro o _
        exact fits.bind _ _ _ _ (inside _ (by simp [Pattern.nodes]))
  | rest span target => exact fits.bind _ _ _ _ (inside _ (by simp [Pattern.nodes]))

/-! ### Expressions -/

omit fits in
theorem sat_readName (name : String) : C.Sat env k (readName name env) (readName name env) := by
  apply Sat.bind (.gets _)
  intro found _
  split
  · rename_i owner b
    have : Known (k.plus (some (owner, b))) b := (Known.pair_iff.1 Known.toldSome).2
    have : Known (k.plus (some (owner, b))) b.value := ⟨this.subset⟩
    exact .ok
  · exact .ite (fun _ => .ok) fun _ => .raise (by simp [Cause.kind])

omit lawful fits in
/-- A reference to a name that stands in a part that may be met, or to a property. -/
def Refers (C : Contract) : Reference → Prop
  | .binding name => C.Place name.span
  | .property _ _ => True

omit fits in
theorem sat_read {ref : Reference} (refers : C.Refers ref) :
    C.Sat env k (ref.read env) (ref.read env) := by
  cases ref with
  | binding name => exact .located refers (sat_readName _)
  | property object key => exact sat_getProperty ..

omit fits in
theorem sat_write {ref : Reference} (refers : C.Refers ref) (v : Value) [Known k v] :
    C.Sat env k (ref.write v env) (ref.write v env) := by
  cases ref with
  | binding name => exact .located refers (.onScopes (Arena.editing_write ..))
  | property object key => exact sat_setProperty ..

omit fits in
/-- What is nested in a member expression can be met on its own. -/
theorem fine_member {span : Span} {object : Expr} {key : MemberKey}
    (fine : C.fine (.expr (.member span object key))) :
    C.fine (.expr object) ∧ ∀ n ∈ key.nodes, C.fine n := by
  have inside := lawful.child _ fine (runs_member span object key)
  simp only [Node.children, Expr.nodes, List.mem_cons] at inside
  exact ⟨inside _ (.inl rfl), fun n member => inside n (.inr member)⟩

theorem sat_memberReference {object : Expr} {key : MemberKey} (fine : C.fine (.expr object))
    (keys : ∀ n ∈ key.nodes, C.fine n) :
    C.Sat env k (memberReference r object key env) (memberReference w object key env) C.Refers :=
  .bind (fits.expr object env fine) fun _ _ => .bind (sat_memberKey fits keys) fun _ _ =>
    .pure trivial

theorem sat_items {list : List Item} (fine : ∀ n ∈ list.flatMap Item.nodes, C.fine n)
    (values : Array Value) [Known k values] :
    C.Sat env k (items r env values list) (items w env values list) := by
  induction list generalizing values k with
  | nil => exact .ok
  | cons item rest ih =>
    simp only [List.flatMap_cons, List.mem_append] at fine
    have later {told : Knowledge} (values : Array Value) [Known told values] :=
      @ih told (fun n member => fine n (.inr member)) values inferInstance
    cases item with
    | one e =>
      exact .bind (fits.expr e env (fine _ (.inl (by simp [Item.nodes])))) fun _ _ => later _
    | spread e =>
      have here : C.fine (.expr e) := fine _ (.inl (by simp [Item.nodes]))
      apply Sat.bind (fits.expr e env here)
      intro v _
      exact .bind (.located (place_expr here) (sat_iterate v)) fun _ _ => later _
    | hole => exact later _

theorem sat_members {list : List Member} (fine : ∀ n ∈ list.flatMap Member.nodes, C.fine n)
    (props : Table Value) [Known k props] :
    C.Sat env k (members r env props list) (members w env props list) := by
  induction list generalizing props k with
  | nil => exact .ok
  | cons member rest ih =>
    simp only [List.flatMap_cons, List.mem_append] at fine
    have later {told : Knowledge} (props : Table Value) [Known told props] :=
      @ih told (fun n member => fine n (.inr member)) props inferInstance
    cases member with
    | property key value =>
      refine .bind (sat_propertyName fits fun n member => fine n (.inl ?_)) fun k _ => ?_
      · simp [Member.nodes, member]
      · exact .bind (sat_named fits (fine _ (.inl (by simp [Member.nodes]))) _) fun _ _ => later _
    | spread e =>
      apply Sat.bind (fits.expr e env (fine _ (.inl (by simp [Member.nodes]))))
      intro source _
      exact .bind (.gets _) fun _ _ => later _

theorem sat_template {parts : List Expr} (fine : ∀ e ∈ parts, C.fine (.expr e)) (text : String)
    (quasis : List String) :
    C.Sat env k (template r env text quasis parts) (template w env text quasis parts) := by
  induction quasis generalizing text parts k with
  | nil =>
    unfold template
    exact .ok
  | cons quasi quasis ih =>
    cases parts with
    | nil => exact ih (by simp) _
    | cons e es =>
      apply Sat.bind (fits.expr e env (fine e List.mem_cons_self))
      intro v _
      refine .bind (sat_toText fits v) fun part _ => .ite (fun _ => .rangeFault _) ?_
      intro _
      exact ih (fun e member => fine e (List.mem_cons_of_mem _ member)) _

theorem sat_lastOf {es : List Expr} (fine : ∀ e ∈ es, C.fine (.expr e)) (last : Value)
    [Known k last] : C.Sat env k (lastOf r env last es) (lastOf w env last es) := by
  induction es generalizing last k with
  | nil => exact .ok
  | cons e rest ih =>
    exact .bind (fits.expr e env (fine e List.mem_cons_self)) fun v _ =>
      ih (fun e member => fine e (List.mem_cons_of_mem _ member)) _

theorem sat_unaryExpression {op : UnaryOp} {argument : Expr} (fine : C.fine (.expr argument)) :
    C.Sat env k (unaryExpression r op argument env) (unaryExpression w op argument env) := by
  unfold unaryExpression
  split
  · exact .bind (.gets _) fun _ _ => .ok
  · obtain ⟨object, keys⟩ := fine_member fine
    exact .bind (fits.expr _ env object) fun _ _ => .bind (sat_memberKey fits keys) fun _ _ =>
      .bind (sat_deleteProperty ..) fun _ _ => .ok
  · exact .ok
  · exact .bind (fits.expr _ env fine) fun v _ => sat_unary fits op v

theorem sat_updateExpression {span : Span} {op : UpdateOp} {before : Bool} {argument : Expr}
    (fine : C.fine (.expr (.update span op before argument)))
    (runs : C.Runs (.expr (.update span op before argument))) :
    C.Sat env k (updateExpression r op before argument env)
      (updateExpression w op before argument env) := by
  have inner : C.fine (.expr argument) :=
    lawful.child _ fine runs _ (by simp [Node.children, Expr.nodes])
  have reference : C.Sat env k (expressionReference r argument env)
      (expressionReference w argument env) C.Refers := by
    cases argument with
    | identifier => exact .pure ⟨_, inner, by simp [Node.spans]⟩
    | member =>
      obtain ⟨object, keys⟩ := fine_member inner
      exact sat_memberReference fits object keys
    | _ => exact sat_unsupported fine runs rfl _ (place_expr inner)
  refine .bind reference fun ref refers => .bind (sat_read refers) ?_
  intro v _
  exact .bind (sat_toNumber fits v) fun _ _ => .bind (sat_write refers _) fun _ _ => .ok

theorem sat_patternReference {n : Node} {p : Pattern} (fine : C.fine n) (runs : C.Runs n)
    (rule : n.executable = true → p.isPlace = true) (target : C.fine (.pattern .assign p)) :
    C.Sat env k (patternReference r p env) (patternReference w p env) C.Refers := by
  have stuck (other : p.isPlace = false) : n.executable = false :=
    Bool.eq_false_iff.2 fun has => by simp [rule has] at other
  cases p with
  | identifier => exact .pure ⟨_, target, by simp [Node.spans]⟩
  | member span object key =>
    have inside := lawful.child _ target (by simp [Runs])
    simp only [Node.children, Pattern.nodes, List.mem_cons] at inside
    exact sat_memberReference fits (inside _ (.inl rfl)) fun n member => inside n (.inr member)
  | _ => exact sat_unsupported fine runs (stuck rfl) _ (place_pattern target)

theorem sat_assignment {span : Span} {op : AssignOp} {target : Pattern} {value : Expr}
    (fine : C.fine (.expr (.assign span op target value)))
    (runs : C.Runs (.expr (.assign span op target value))) :
    C.Sat env k (assignment r op target value env) (assignment w op target value env) := by
  have inside := lawful.child _ fine runs
  simp only [Node.children, Expr.nodes] at inside
  have inner : C.fine (.pattern .assign target) := inside _ (by simp)
  have right : C.fine (.expr value) := inside _ (by simp)
  cases op with
  | plain =>
    cases target with
    | identifier | member =>
      refine .bind (sat_patternReference fits fine runs (fun _ => rfl) inner) ?_
      intro ref refers
      exact .bind (sat_named fits right _) fun _ _ => .bind (sat_write refers _) fun _ _ => .ok
    | array | object =>
      exact .bind (fits.expr _ env right) fun _ _ => .bind (fits.bind _ _ _ _ inner) fun _ _ => .ok
    | withDefault | rest => exact sat_unsupported fine runs rfl _ (place_pattern inner)
  | logical op =>
    apply Sat.bind (sat_patternReference fits fine runs id inner)
    intro ref refers
    refine .bind (sat_read refers) fun current _ => .ite (fun _ => .ok) ?_
    intro _
    exact .bind (sat_named fits right _) fun _ _ => .bind (sat_write refers _) fun _ _ => .ok
  | compound op =>
    apply Sat.bind (sat_patternReference fits fine runs id inner)
    intro ref refers
    refine .bind (sat_read refers) fun current _ => .bind (fits.expr _ env right) ?_
    intro v _
    exact .bind (sat_arith fits ..) fun _ _ => .bind (sat_write refers _) fun _ _ => .ok

theorem sat_calleeAndReceiver {callee : Expr} (fine : C.fine (.expr callee)) :
    C.Sat env k (calleeAndReceiver r callee env) (calleeAndReceiver w callee env) := by
  have nested : C.Sat env k (r.expr callee env) (w.expr callee env) := fits.expr callee env fine
  cases callee with
  | member span object key =>
    obtain ⟨object, keys⟩ := fine_member fine
    exact .bind (fits.expr _ env object) fun _ _ => .bind (sat_memberKey fits keys) fun _ _ =>
      .bind (.located (place_expr fine) (sat_getProperty ..)) fun _ _ => .ok
  | _ => exact .bind nested fun _ _ => .ok

theorem sat_callExpression {callee : Expr} {arguments : List Item} (fine : C.fine (.expr callee))
    (args : ∀ n ∈ arguments.flatMap Item.nodes, C.fine n) :
    C.Sat env k (callExpression r callee arguments env)
      (callExpression w callee arguments env) := by
  apply Sat.bind (sat_calleeAndReceiver fits fine)
  intro called _
  apply Sat.bind (sat_items fits args _)
  intro values _
  exact .ite (fun _ => fits.call ..) fun _ => .typeFault _

theorem sat_newExpression {callee : Expr} {arguments : List Item} (fine : C.fine (.expr callee))
    (args : ∀ n ∈ arguments.flatMap Item.nodes, C.fine n) :
    C.Sat env k (newExpression r callee arguments env) (newExpression w callee arguments env) := by
  refine .bind (fits.expr callee env fine) fun f _ => .bind (sat_items fits args _) ?_
  intro values _
  exact .ite (fun _ => sat_construct fits ..) fun _ => .typeFault _

theorem sat_expressionForm {e : Expr} (fine : C.fine (.expr e)) (runs : C.Runs (.expr e)) :
    C.SatLanding (e.isArray = true) env k (expressionForm r e env) (expressionForm w e env) := by
  have inside := lawful.child _ fine runs
  simp only [Node.children] at inside
  cases e with
  | number | string | boolean | null => exact .of_sat .ok
  | template span quasis parts =>
    exact .of_sat (sat_template fits (fun e member => inside _ (by simp [Expr.nodes, member])) ..)
  | identifier span name => exact .of_sat (sat_readName _)
  | this => exact .of_sat (.gets _)
  | array span list =>
    exact .bind (sat_items fits (fun n member => inside n member) _) fun _ _ => .newArray rfl _
  | object span list =>
    exact .of_sat (.bind (sat_members fits (fun n member => inside n member) _) fun _ _ =>
      .bind (.newObject _) fun _ _ => .ok)
  | function span fn => exact .of_sat (sat_functionExpression (inside _ (by simp [Expr.nodes])))
  | unary span op argument =>
    exact .of_sat (sat_unaryExpression fits (inside _ (by simp [Expr.nodes])))
  | update span op before argument => exact .of_sat (sat_updateExpression fits fine runs)
  | binary span op left right =>
    refine .of_sat (.bind (fits.expr left env (inside _ (by simp [Expr.nodes]))) ?_)
    intro a _
    exact .bind (fits.expr right env (inside _ (by simp [Expr.nodes]))) fun b _ =>
      sat_binary fits op a b
  | logical span op left right =>
    refine .of_sat (.bind (fits.expr left env (inside _ (by simp [Expr.nodes]))) ?_)
    intro a _
    exact .ite (fun _ => .ok) fun _ => fits.expr right env (inside _ (by simp [Expr.nodes]))
  | assign span op target value => exact .of_sat (sat_assignment fits fine runs)
  | conditional span test yes no =>
    refine .of_sat (.bind (fits.expr test env (inside _ (by simp [Expr.nodes]))) ?_)
    intro t _
    exact .ite (fun _ => fits.expr yes env (inside _ (by simp [Expr.nodes]))) fun _ =>
      fits.expr no env (inside _ (by simp [Expr.nodes]))
  | call span callee arguments =>
    exact .of_sat (sat_callExpression fits (inside _ (by simp [Expr.nodes])) fun n member =>
      inside n (List.mem_cons_of_mem _ member))
  | new span callee arguments =>
    exact .of_sat (sat_newExpression fits (inside _ (by simp [Expr.nodes])) fun n member =>
      inside n (List.mem_cons_of_mem _ member))
  | member span object key =>
    obtain ⟨object, keys⟩ := fine_member fine
    exact .of_sat
      (.bind (fits.expr _ env object) fun _ _ => .bind (sat_memberKey fits keys) fun _ _ =>
      sat_getProperty ..)
  | sequence span es =>
    exact .of_sat (sat_lastOf fits (fun e member => inside _ (by simp [Expr.nodes, member])) _)

theorem sat_expression {e : Expr} (fine : C.fine (.expr e)) (runs : C.Runs (.expr e)) :
    C.SatLanding (e.isArray = true) env k (expression r e env) (expression w e env) :=
  .located (place_expr fine) (sat_expressionForm fits fine runs)

end Fits

end Contract

end Scriptlet
