import Scriptlet.Proofs.Tree.Construct

/-!
The parts that are run, among all constructs.

Main statement: everything that is run in a formed construct has a rule of the evaluator, except for
plain assignments to targets with default values.
-/

namespace Scriptlet

/-- A plain assignment to a target with a default value, which no rule is for. -/
def Expr.isDefaulted : Expr → Bool
  | .assign _ .plain (.withDefault _ _ _) _ => true
  | _ => false

def Node.isDefaulted : Node → Bool
  | .expr e => e.isDefaulted
  | _ => false

/-- A part in which everything can be run, but for plain assignments to targets with default
values. -/
inductive Node.Sane : Node → Prop where
  | intro {n : Node} :
      n.executable = true ∨ n.isDefaulted = true → (∀ m ∈ n.children, Sane m) → Sane n

namespace Node.Sane

theorem rule {n : Node} (sane : n.Sane) : n.executable = true ∨ n.isDefaulted = true := by
  cases sane
  assumption

theorem inside {n : Node} (sane : n.Sane) : ∀ m ∈ n.children, m.Sane := by
  cases sane
  assumption

end Node.Sane

/-! ### What is run stands in what is there -/

def BindMode.declares : BindMode → Bool
  | .declare _ => true
  | .assign => false

/-- What a part that is run is in the text. -/
def Node.construct : Node → Construct
  | .expr e => .expr e
  | .stmt s => .stmt s
  | .pattern mode p => .pattern mode.declares p
  | .function fn => .function fn

namespace Construct

/-- One construct stands in another. -/
def Below (c d : Construct) : Prop :=
  ∃ part ∈ c.parts, part.Contains d

theorem below_part {c d : Construct} (member : d ∈ c.parts) : c.Below d :=
  ⟨d, member, .refl d⟩

theorem Below.contains {c d : Construct} (below : c.Below d) : c.Contains d := by
  obtain ⟨part, member, contains⟩ := below
  exact .inside member contains

theorem Below.inside {c d e : Construct} (member : d ∈ c.parts) (below : d.Below e) : c.Below e :=
  ⟨d, member, below.contains⟩

theorem below_statement {b : Block} {n : Node} (member : n ∈ b.body.map .stmt) :
    (Construct.block b).Below n.construct := by
  obtain ⟨s, there, rfl⟩ := List.mem_map.1 member
  exact below_part (by simp [parts, rows, Node.construct, there])

end Construct

open Construct

theorem PropertyKey.construct_mem {key : PropertyKey} {n : Node} (member : n ∈ key.nodes) :
    n.construct ∈ key.constructs := by
  cases key with
  | static | number => cases member
  | computed e => simp_all [nodes, constructs, Node.construct]

theorem MemberKey.construct_mem {key : MemberKey} {n : Node} (member : n ∈ key.nodes) :
    n.construct ∈ key.constructs := by
  cases key with
  | static => cases member
  | computed e => simp_all [nodes, constructs, Node.construct]

theorem Item.construct_mem {items : List Item} {n : Node} (member : n ∈ items.flatMap nodes) :
    n.construct ∈ items.flatMap constructs := by
  obtain ⟨item, there, member⟩ := List.mem_flatMap.1 member
  refine List.mem_flatMap.2 ⟨item, there, ?_⟩
  cases item with
  | one e | spread e => simp_all [nodes, constructs, Node.construct]
  | hole => cases member

theorem Member.construct_mem {m : Member} {n : Node} (member : n ∈ m.nodes) :
    n.construct ∈ m.keys ∨ n.construct = m.value := by
  cases m with
  | property key e =>
    rcases List.mem_append.1 member with inside | inside
    · exact .inl (PropertyKey.construct_mem inside)
    · obtain rfl := List.mem_singleton.1 inside
      exact .inr rfl
  | spread e =>
    obtain rfl := List.mem_singleton.1 member
    exact .inr rfl

theorem Expr.construct_mem {e : Expr} {n : Node} (member : n ∈ e.nodes) :
    n.construct ∈ e.rows.flatten := by
  cases e with
  | number | string | boolean | null | identifier | this => cases member
  | template span quasis es | sequence span es =>
    obtain ⟨e, there, rfl⟩ := List.mem_map.1 member
    simp [rows, Node.construct, there]
  | array span items => simpa [rows] using Item.construct_mem member
  | object span members =>
    obtain ⟨m, there, inside⟩ := List.mem_flatMap.1 member
    simp only [rows, List.flatten_cons, List.mem_append, List.mem_flatMap, List.mem_map]
    rcases m.construct_mem inside with key | value
    · exact .inl ⟨m, there, key⟩
    · exact .inr (.inl ⟨m, there, value.symm⟩)
  | function | unary | update | binary | logical | assign | conditional =>
    simp only [nodes, List.mem_cons, List.not_mem_nil, or_false] at member
    rcases member with rfl | rfl | rfl <;> simp [rows, Node.construct, BindMode.declares]
  | call span callee arguments | new span callee arguments =>
    rcases List.mem_cons.1 member with rfl | inside
    · simp [rows, Node.construct]
    · have argument := Item.construct_mem inside
      simp [rows, argument]
  | member span object key =>
    rcases List.mem_cons.1 member with rfl | inside
    · simp [rows, Node.construct]
    · have part := MemberKey.construct_mem inside
      simp [rows, part]

theorem Pattern.construct_mem {mode : BindMode} {p : Pattern} {n : Node}
    (member : n ∈ p.nodes mode) : n.construct ∈ (p.rows mode.declares).flatten := by
  cases p with
  | identifier => cases member
  | array span elements =>
    obtain ⟨q, there, rfl⟩ := List.mem_map.1 member
    simpa [rows, Node.construct] using there
  | object span properties others =>
    simp only [rows, List.flatten_cons, List.mem_append, List.mem_flatMap, List.mem_map]
    rcases List.mem_append.1 member with inside | inside
    · obtain ⟨q, there, inside⟩ := List.mem_flatMap.1 inside
      rcases List.mem_append.1 inside with inside | inside
      · exact .inl ⟨q, there, PropertyKey.construct_mem inside⟩
      · obtain rfl := List.mem_singleton.1 inside
        exact .inr (.inl ⟨q.value, .inl ⟨q, there, rfl⟩, rfl⟩)
    · obtain ⟨q, there, rfl⟩ := List.mem_map.1 inside
      exact .inr (.inl ⟨q, .inr there, rfl⟩)
  | withDefault span target value =>
    simp only [nodes, List.mem_cons, List.not_mem_nil, or_false] at member
    rcases member with rfl | rfl <;> simp [rows, Node.construct]
  | rest span target =>
    obtain rfl := List.mem_singleton.1 member
    simp [rows, Node.construct]
  | member span object key =>
    rcases List.mem_cons.1 member with rfl | inside
    · simp [rows, Node.construct]
    · have part := MemberKey.construct_mem inside
      simp [rows, part]

theorem Function.below_node {fn : Function} {n : Node} (member : n ∈ fn.nodes) :
    (Construct.function fn).Below n.construct := by
  rcases List.mem_append.1 member with inside | inside
  · obtain ⟨p, there, rfl⟩ := List.mem_map.1 inside
    refine below_part ?_
    simp [parts, Construct.rows, row, Node.construct, BindMode.declares, there]
  · cases body : fn.body with
    | block b =>
      rw [body] at inside
      refine .inside ?_ (below_statement inside)
      simp [parts, Construct.rows, row, body, FunctionBody.constructs]
    | expression e =>
      rw [body] at inside
      obtain rfl := List.mem_singleton.1 inside
      refine below_part ?_
      simp [parts, Construct.rows, row, body, FunctionBody.constructs, Node.construct]

theorem Declaration.below_node {d : Declaration} {n : Node} (member : n ∈ d.nodes) :
    (Construct.declaration d).Below n.construct := by
  obtain ⟨each, there, inside⟩ := List.mem_flatMap.1 member
  refine .inside (d := .declarator each) (by simp [parts, Construct.rows, there]) (below_part ?_)
  rcases List.mem_cons.1 inside with rfl | inside
  · simp [parts, Construct.rows, Node.construct, BindMode.declares]
  · obtain ⟨e, there, rfl⟩ := List.mem_map.1 inside
    simp [parts, Construct.rows, Node.construct, Option.mem_toList.1 there]

theorem Handler.below_node {handler : Handler} {n : Node} (member : n ∈ handler.nodes) :
    ∃ c ∈ handler.constructs, c.Below n.construct := by
  cases handler with
  | nothing => cases member
  | catch_ span param body =>
    refine ⟨_, List.mem_singleton_self _, ?_⟩
    rcases List.mem_append.1 member with inside | inside
    · obtain ⟨p, there, rfl⟩ := List.mem_map.1 inside
      refine below_part ?_
      simp [parts, Construct.rows, Node.construct, BindMode.declares, Option.mem_toList.1 there]
    · exact .inside (by simp [parts, Construct.rows]) (below_statement inside)

theorem Case.below_node {c : Case} {n : Node} (member : n ∈ c.nodes) :
    (Construct.case c).Below n.construct := by
  refine below_part ?_
  rcases List.mem_append.1 member with inside | inside
  · obtain ⟨e, there, rfl⟩ := List.mem_map.1 inside
    simp [parts, Construct.rows, Node.construct, Option.mem_toList.1 there]
  · obtain ⟨s, there, rfl⟩ := List.mem_map.1 inside
    simp [parts, Construct.rows, Node.construct, there]

theorem ForInit.contains_node {init : ForInit} {n : Node} (member : n ∈ init.nodes) :
    ∃ c ∈ init.constructs, c.Contains n.construct := by
  cases init with
  | nothing => cases member
  | declaration d => exact ⟨_, List.mem_singleton_self _, (d.below_node member).contains⟩
  | expression e =>
    obtain rfl := List.mem_singleton.1 member
    exact ⟨_, List.mem_singleton_self _, .refl _⟩

theorem Stmt.below_node {s : Stmt} {n : Node} (member : n ∈ s.nodes) :
    (Construct.stmt s).Below n.construct := by
  -- most parts of a statement stand right below it
  have direct (there : n.construct ∈ s.rows.flatten) : (Construct.stmt s).Below n.construct :=
    below_part there
  cases s with
  | empty | break_ | continue_ => cases member
  | expression | throw_ | function =>
    obtain rfl := List.mem_singleton.1 member
    exact direct (by simp [rows, Node.construct])
  | return_ span value =>
    obtain ⟨e, there, rfl⟩ := List.mem_map.1 member
    exact direct (by simp [rows, Node.construct, Option.mem_toList.1 there])
  | declaration span d =>
    exact .inside (by simp [parts, Construct.rows, rows]) (d.below_node member)
  | block span b => exact .inside (by simp [parts, Construct.rows, rows]) (below_statement member)
  | if_ span test yes no =>
    simp only [nodes, List.mem_cons, List.mem_map] at member
    rcases member with rfl | rfl | ⟨other, there, rfl⟩
    · exact direct (by simp [rows, Node.construct])
    · exact direct (by simp [rows, Node.construct])
    · exact direct (by simp [rows, Node.construct, Option.mem_toList.1 there])
  | for_ span init test update body =>
    simp only [nodes, List.mem_append, List.mem_map, List.mem_singleton] at member
    rcases member with ((inside | ⟨e, there, rfl⟩) | ⟨e, there, rfl⟩) | rfl
    · obtain ⟨c, there, contains⟩ := init.contains_node inside
      exact ⟨c, by simp [parts, Construct.rows, rows, there], contains⟩
    · exact direct (by simp [rows, Node.construct, Option.mem_toList.1 there])
    · exact direct (by simp [rows, Node.construct, Option.mem_toList.1 there])
    · exact direct (by simp [rows, Node.construct])
  | forEach span mode declared target subject body =>
    have same : (eachMode declared).declares = declared.isSome := by
      cases declared <;> rfl
    simp only [nodes, List.mem_cons, List.not_mem_nil, or_false] at member
    rcases member with rfl | rfl | rfl
    · exact direct (by simp [rows, Node.construct, same])
    · exact direct (by simp [rows, Node.construct])
    · exact direct (by simp [rows, Node.construct])
  | while_ | doWhile =>
    simp only [nodes, List.mem_cons, List.not_mem_nil, or_false] at member
    rcases member with rfl | rfl
    · exact direct (by simp [rows, Node.construct])
    · exact direct (by simp [rows, Node.construct])
  | try_ span b handler finalizer =>
    simp only [nodes, List.mem_append, List.mem_flatMap] at member
    rcases member with (inside | inside) | ⟨last, there, inside⟩
    · exact .inside (by simp [parts, Construct.rows, rows]) (below_statement inside)
    · obtain ⟨c, there, below⟩ := handler.below_node inside
      exact .inside (by simp [parts, Construct.rows, rows, there]) below
    · refine .inside ?_ (below_statement inside)
      simp [parts, Construct.rows, rows, Option.mem_toList.1 there]
  | switch span subject list =>
    rcases List.mem_cons.1 member with rfl | inside
    · exact direct (by simp [rows, Node.construct])
    · obtain ⟨c, there, inside⟩ := List.mem_flatMap.1 inside
      exact .inside (by simp [parts, Construct.rows, rows, there]) (c.below_node inside)

namespace Node

theorem below_child {n m : Node} (member : m ∈ n.children) : n.construct.Below m.construct := by
  cases n with
  | expr e => exact below_part (c := .expr e) (e.construct_mem member)
  | stmt s => exact s.below_node member
  | pattern mode p => exact below_part (c := .pattern mode.declares p) (p.construct_mem member)
  | function fn => exact fn.below_node member

end Node

/-! ### Rules for everything -/

/-- The evaluator has rules for what is shaped. -/
theorem Node.rule_of_shaped {n : Node} (shaped : n.construct.isShaped = true) :
    n.executable = true ∨ n.isDefaulted = true := by
  cases n with
  | stmt | function => exact .inl rfl
  | expr e =>
    cases e with
    | update => exact .inl shaped
    | assign span op target value =>
      cases op with
      | compound | logical => exact .inl shaped
      | plain =>
        cases target with
        | identifier | member | array | object => exact .inl rfl
        | withDefault => exact .inr rfl
        | rest => cases shaped
    | _ => exact .inl rfl
  | pattern mode p =>
    cases mode with
    | assign => exact .inl rfl
    | declare kind =>
      cases p with
      | member => cases shaped
      | _ => exact .inl rfl

theorem Node.Sane.of_formed {source : String} {c : Construct} (formed : c.Formed source) :
    ∀ n : Node, n.construct = c → n.Sane := by
  suffices inside : ∀ d, c.Contains d → ∀ n : Node, n.construct = d → n.Sane from inside c (.refl c)
  induction formed with
  | intro _ shaped _ _ _ ih =>
    intro d contains n same
    cases contains with
    | refl =>
      subst same
      refine .intro (rule_of_shaped shaped) fun m member => ?_
      obtain ⟨part, there, contains⟩ := below_child member
      obtain ⟨row, among, there⟩ := List.mem_flatten.1 there
      exact ih row among part there _ contains m rfl
    | inside there contains =>
      obtain ⟨row, among, there⟩ := List.mem_flatten.1 there
      exact ih row among _ there _ contains n same

end Scriptlet
