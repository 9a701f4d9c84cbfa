import Scriptlet.Proofs.Eval.Node
import Scriptlet.Proofs.Grammar.Extent
import Scriptlet.Tree.Binding

/-!
The program tree with all that has a span in it.

A construct is any part of a program that knows its place in the text. Its parts stand in rows; the
parts of one row follow each other in the text. A construct is formed if it consists of whole
characters, holds its rows, has the shape that evaluation relies on, and all its parts are formed.
-/

namespace Scriptlet

inductive Construct where
  | program (p : Program)
  | stmt (s : Stmt)
  | expr (e : Expr)
  /-- A pattern that declares its names, or one that assigns to places. -/
  | pattern (declares : Bool) (p : Pattern)
  | name (n : Name)
  | function (fn : Function)
  | block (b : Block)
  | declaration (d : Declaration)
  | declarator (d : Declarator)
  | catch_ (span : Span) (param : Option Pattern) (body : Block)
  | case (c : Case)

/-! ### Parts -/

def PropertyKey.constructs : PropertyKey → List Construct
  | .static _ | .number _ => []
  | .computed e => [.expr e]

def MemberKey.constructs : MemberKey → List Construct
  | .static name => [.name name]
  | .computed e => [.expr e]

def Item.constructs : Item → List Construct
  | .one e | .spread e => [.expr e]
  | .hole => []

/-- The key of a member of an object. -/
def Member.keys : Member → List Construct
  | .property key _ => key.constructs
  | .spread _ => []

def Member.value : Member → Construct
  | .property _ value => .expr value
  | .spread e => .expr e

def FunctionBody.constructs : FunctionBody → List Construct
  | .block b => [.block b]
  | .expression e => [.expr e]

def ForInit.constructs : ForInit → List Construct
  | .nothing => []
  | .declaration d => [.declaration d]
  | .expression e => [.expr e]

def Handler.constructs : Handler → List Construct
  | .nothing => []
  | .catch_ span param body => [.catch_ span param body]

/-- The keys of an object stand apart from the values, since the span of a method reaches over its
key. -/
def Expr.rows : Expr → List (List Construct)
  | .number _ _ | .string _ _ | .boolean _ _ | .null _ | .this _ => []
  | .template _ _ parts => [parts.map .expr]
  | .identifier _ name => [[.name name]]
  | .array _ items => [items.flatMap Item.constructs]
  | .object _ members => [members.flatMap Member.keys, members.map Member.value]
  | .function _ fn => [[.function fn]]
  | .unary _ _ argument | .update _ _ _ argument => [[.expr argument]]
  | .binary _ _ left right | .logical _ _ left right => [[.expr left, .expr right]]
  | .assign _ _ target value => [[.pattern false target, .expr value]]
  | .conditional _ test yes no => [[.expr test, .expr yes, .expr no]]
  | .call _ callee arguments => [.expr callee :: arguments.flatMap Item.constructs]
  | .new _ callee arguments => [[.expr callee], arguments.flatMap Item.constructs]
  | .member _ of key => [.expr of :: key.constructs]
  | .sequence _ items => [items.map .expr]

def Pattern.rows (declares : Bool) : Pattern → List (List Construct)
  | .identifier _ name => [[.name name]]
  | .array _ elements => [(elements.filterMap id).map (.pattern declares)]
  | .object _ properties others =>
    [properties.flatMap fun p => p.key.constructs,
      (properties.map (·.value) ++ others.toList).map (.pattern declares)]
  | .withDefault _ target value => [[.pattern declares target, .expr value]]
  | .rest _ target => [[.pattern declares target]]
  | .member _ of key => [.expr of :: key.constructs]

def Stmt.rows : Stmt → List (List Construct)
  | .empty _ | .break_ _ | .continue_ _ => []
  | .expression _ e | .throw_ _ e => [[.expr e]]
  | .declaration _ d => [[.declaration d]]
  | .function _ fn => [[.function fn]]
  | .block _ b => [[.block b]]
  | .if_ _ test yes no => [.expr test :: .stmt yes :: no.toList.map .stmt]
  | .for_ _ init test change body =>
    [init.constructs, test.toList.map .expr, change.toList.map .expr, [.stmt body]]
  | .forEach _ _ declared target subject body =>
    [[.pattern declared.isSome target, .expr subject, .stmt body]]
  | .while_ _ test body => [[.expr test, .stmt body]]
  | .doWhile _ body test => [[.stmt body, .expr test]]
  | .return_ _ value => [value.toList.map .expr]
  | .try_ _ body handler finalizer =>
    [.block body :: (handler.constructs ++ finalizer.toList.map .block)]
  | .switch _ subject cases => [.expr subject :: cases.map .case]

def Function.row (fn : Function) : List Construct :=
  fn.name.toList.map .name ++ fn.params.map (.pattern true) ++ fn.body.constructs

namespace Construct

def span : Construct → Span
  | .program p => p.span
  | .stmt s => s.span
  | .expr e => e.span
  | .pattern _ p => p.span
  | .name n => n.span
  | .function fn => fn.span
  | .block b => b.span
  | .declaration d => d.span
  | .declarator d => d.span
  | .catch_ span _ _ => span
  | .case c => c.span

/-- The parts right below a construct; those of one row follow each other. -/
def rows : Construct → List (List Construct)
  | .program p => [p.body.map .stmt]
  | .stmt s => s.rows
  | .expr e => e.rows
  | .pattern declares p => p.rows declares
  | .name _ => []
  | .function fn => [fn.row]
  | .block b => [b.body.map .stmt]
  | .declaration d => [d.declarators.map .declarator]
  | .declarator d => [.pattern true d.target :: d.init.toList.map .expr]
  | .catch_ _ param body => [param.toList.map (.pattern true) ++ [.block body]]
  | .case c => [c.test.toList.map .expr ++ c.body.map .stmt]

def parts (c : Construct) : List Construct :=
  c.rows.flatten

/-- A construct and all that stands in it. -/
inductive Contains : Construct → Construct → Prop where
  | refl (c : Construct) : Contains c c
  | inside {c d e : Construct} : d ∈ c.parts → Contains d e → Contains c e

/-- Whether a construct has the shape that evaluation relies on. -/
def isShaped : Construct → Bool
  | .expr (.template _ quasis parts) => quasis.length == parts.length + 1
  | .expr (.update _ _ _ argument) => argument.isPlace
  | .expr (.assign _ .plain target _) => target.isLetThrough
  | .expr (.assign _ _ target _) => target.isPlace
  | .pattern true (.member _ _ _) => false
  | .pattern true (.object _ _ (some (.identifier _ _))) => true
  | .pattern true (.object _ _ (some _)) => false
  | .function fn => fn.kind != .declaration || fn.name.isSome
  | .stmt (.function _ fn) => fn.kind == .declaration
  | .stmt (.try_ _ _ .nothing none) => false
  | .declaration d => d.kind != .const || d.declarators.all (·.init.isSome)
  | _ => true

/-- What comes after a rest: nothing where an expression was read as a pattern and in a list of
parameters, and at most elisions in an array pattern that declares names. -/
def RestsLast : Construct → Prop
  | .pattern true (.array _ elements) => elements.Pairwise fun p q =>
    p.any Tree.isRest = true → q = none
  | .pattern false (.array _ elements) => elements.Pairwise fun p _ => p.any Tree.isRest = false
  | .function fn => fn.params.Pairwise fun p _ => Tree.isRest p = false
  | _ => True

inductive Formed (source : String) : Construct → Prop where
  | intro {c : Construct} : c.span.Within source → c.isShaped = true → c.RestsLast →
      (∀ row ∈ c.rows, Span.Chain c.span.start (row.map Construct.span) c.span.stop) →
      (∀ row ∈ c.rows, ∀ d ∈ row, Formed source d) → Formed source c

/-- Formed constructs that follow each other between two places. -/
structure Laid (source : String) (low : Nat) (cs : List Construct) (high : Nat) : Prop where
  chain : Span.Chain low (cs.map Construct.span) high
  formed : ∀ c ∈ cs, c.Formed source

variable {source : String} {c d : Construct} {cs ds : List Construct} {low mid mid' high : Nat}

namespace Formed

theorem within (formed : c.Formed source) : c.span.Within source := by
  cases formed
  assumption

theorem shaped (formed : c.Formed source) : c.isShaped = true := by
  cases formed
  assumption

theorem restsLast (formed : c.Formed source) : c.RestsLast := by
  cases formed
  assumption

/-- What the parts of a formed construct are laid out as. -/
theorem rows (formed : c.Formed source) {row : List Construct} (member : row ∈ c.rows) :
    Laid source c.span.start row c.span.stop := by
  cases formed with
  | intro _ _ _ chain inside => exact ⟨chain row member, inside row member⟩

theorem parts (formed : c.Formed source) (member : d ∈ c.parts) : d.Formed source := by
  obtain ⟨row, there, member⟩ := List.mem_flatten.1 member
  exact (formed.rows there).formed d member

theorem contains (formed : c.Formed source) (contains : c.Contains d) : d.Formed source := by
  induction contains with
  | refl => exact formed
  | inside member _ ih => exact ih (formed.parts member)

theorem of_rows (within : c.span.Within source) (shaped : c.isShaped = true)
    (rests : c.RestsLast) (laid : ∀ row ∈ c.rows, Laid source c.span.start row c.span.stop) :
    c.Formed source :=
  .intro within shaped rests (fun row member => (laid row member).chain) fun row member =>
    (laid row member).formed

theorem of_row {row : List Construct} (within : c.span.Within source) (shaped : c.isShaped = true)
    (rests : c.RestsLast) (single : c.rows = [row])
    (laid : Laid source c.span.start row c.span.stop) :
    c.Formed source :=
  .of_rows within shaped rests (by simpa [single] using laid)

theorem leaf (within : c.span.Within source) (shaped : c.isShaped = true) (rests : c.RestsLast)
    (empty : c.rows = []) : c.Formed source :=
  .of_rows within shaped rests (by simp [empty])

theorem name {n : Name} (within : n.span.Within source) : (Construct.name n).Formed source :=
  .leaf within rfl trivial rfl

end Formed

namespace Laid

theorem le (laid : Laid source low cs high) : low ≤ high :=
  laid.chain.le

theorem nil (le : low ≤ high) : Laid source low [] high :=
  ⟨le, by simp⟩

theorem append (first : Laid source low cs mid) (gap : mid ≤ mid')
    (second : Laid source mid' ds high) :
    Laid source low (cs ++ ds) high := by
  refine ⟨?_, List.forall_mem_append.2 ⟨first.formed, second.formed⟩⟩
  rw [List.map_append]
  exact first.chain.append (second.chain.from_le gap)

theorem widen {low' high' : Nat} (before : low' ≤ low) (laid : Laid source low cs high)
    (after : high ≤ high') : Laid source low' cs high' :=
  ⟨(laid.chain.from_le before).to_le after, laid.formed⟩

end Laid

theorem laid_nil : Laid source low [] high ↔ low ≤ high :=
  ⟨Laid.le, .nil⟩

theorem laid_cons : Laid source low (c :: cs) high ↔
    low ≤ c.span.start ∧ c.Formed source ∧ Laid source c.span.stop cs high := by
  constructor
  · rintro ⟨⟨before, _, after⟩, formed⟩
    obtain ⟨first, others⟩ := List.forall_mem_cons.1 formed
    exact ⟨before, first, after, others⟩
  · rintro ⟨before, first, after, others⟩
    exact ⟨⟨before, first.within.ordered, after⟩, List.forall_mem_cons.2 ⟨first, others⟩⟩

theorem Laid.tail (laid : Laid source low (c :: cs) high) : Laid source low cs high := by
  obtain ⟨before, formed, after⟩ := laid_cons.1 laid
  exact after.widen (Nat.le_trans before formed.within.ordered) (Nat.le_refl _)

/-- What stands in each construct of a row follows each other too. -/
theorem Laid.flatMap {f : Construct → List Construct} (laid : Laid source low cs high)
    (inside : ∀ c ∈ cs, c.Formed source → Laid source c.span.start (f c) c.span.stop) :
    Laid source low (cs.flatMap f) high := by
  induction cs generalizing low with
  | nil => exact laid
  | cons c cs ih =>
    obtain ⟨before, formed, after⟩ := laid_cons.1 laid
    obtain ⟨first, others⟩ := List.forall_mem_cons.1 inside
    rw [List.flatMap_cons]
    exact ((first formed).append (Nat.le_refl _) (ih after others)).widen before (Nat.le_refl _)

/-- Where two rows meet. -/
theorem Laid.split (laid : Laid source low (cs ++ ds) high) :
    ∃ mid, Laid source low cs mid ∧ Laid source mid ds high := by
  induction cs generalizing low with
  | nil => exact ⟨low, .nil (Nat.le_refl _), laid⟩
  | cons c cs ih =>
    obtain ⟨before, formed, after⟩ := laid_cons.1 laid
    obtain ⟨mid, first, second⟩ := ih after
    exact ⟨mid, laid_cons.2 ⟨before, formed, first⟩, second⟩

theorem laid_single : Laid source low [c] high ↔
    low ≤ c.span.start ∧ c.Formed source ∧ c.span.stop ≤ high := by
  rw [laid_cons, laid_nil]

/-- A formed construct fills its own span. -/
theorem Formed.laid (formed : c.Formed source) : Laid source c.span.start [c] c.span.stop :=
  laid_single.2 ⟨Nat.le_refl _, formed, Nat.le_refl _⟩

end Construct

end Scriptlet
