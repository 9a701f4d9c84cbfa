import Scriptlet.Proofs.Tree.Strict

/-!
Something after a rest: a node that puts a parameter or another element after a rest, or anything
after a spread that is read as a pattern, is not built.
-/

namespace Scriptlet

open Grammar (Rule Peg script)

/-- An expression that cannot be read as a pattern because something comes after a spread. -/
inductive Expr.Crowded : Expr → Prop where
  | element {span : Span} {before after : List Item} {e : Expr} {next : Item} :
      Crowded (.array span (before ++ .spread e :: next :: after))
  | member {span : Span} {before after : List Member} {e : Expr} {next : Member} :
      Crowded (.object span (before ++ .spread e :: next :: after))
  | insideElement {span : Span} {items : List Item} {e : Expr} :
      .one e ∈ items ∨ .spread e ∈ items → Crowded e → Crowded (.array span items)
  | insideMember {span : Span} {members : List Member} {key : PropertyKey} {e : Expr} :
      .property key e ∈ members → Crowded e → Crowded (.object span members)

/-- A node of a match that puts something after a rest, where no elision may stand for it. -/
inductive Grammar.Node.Crowded : Grammar.Node Rule → Prop where
  | slot {n s t : Grammar.Node Rule} {before after : List (Grammar.Node Rule)} :
      n.rule = .arrayBinding → n.children = before ++ s :: after →
      s.children.map Grammar.Node.rule = [.restElement] → t ∈ after → t.children ≠ [] → Crowded n
  | parameter {n r next : Grammar.Node Rule} {before after : List (Grammar.Node Rule)} :
      n.rule = .parameters → n.children = before ++ r :: next :: after → r.rule = .restElement →
      Crowded n
  | property {n r next : Grammar.Node Rule} {before after : List (Grammar.Node Rule)} :
      n.rule = .objectBinding → n.children = before ++ r :: next :: after → r.rule = .restElement →
      Crowded n
  | target {n left operator value : Grammar.Node Rule} {e : Expr} :
      n.rule = .assignment → n.children = [left, operator, value] →
      (Tree.build operator).piece = .ok (.assignOp .plain) → (Tree.build left).expr = .ok e →
      e.Crowded → Crowded n
  | each {n left : Grammar.Node Rule} {e : Expr} :
      n.rule = .forEachLeft → n.children = [left] → (Tree.build left).expr = .ok e →
      e.Crowded → Crowded n

namespace Tree

variable {α : Type} {parts : List Part} {span : Span}

/-! ### Expressions -/

theorem itemPatterns_crowded {before after : List Item} {e : Expr} {next : Item}
    {ps : List (Option Pattern)} :
    itemPatterns (before ++ .spread e :: next :: after) ≠ .ok ps := by
  intro made
  induction before generalizing ps with
  | nil =>
    rw [List.nil_append, itemPatterns] at made
    cases made
  | cons item before ih =>
    cases item with
    | hole =>
      rw [List.cons_append, itemPatterns] at made
      obtain ⟨qs, others, _⟩ := bind_ok.1 made
      exact ih others
    | one e =>
      rw [List.cons_append, itemPatterns] at made
      obtain ⟨p, _, made⟩ := bind_ok.1 made
      obtain ⟨qs, others, _⟩ := bind_ok.1 made
      exact ih others
    | spread e =>
      rw [List.cons_append, itemPatterns, if_neg (by simp)] at made
      cases made

theorem itemPatterns_inside {items : List Item} {e : Expr} {ps : List (Option Pattern)}
    (made : itemPatterns items = .ok ps) (member : .one e ∈ items ∨ .spread e ∈ items) :
    ∃ p, toPattern e = .ok p := by
  induction items generalizing ps with
  | nil => simp at member
  | cons item rest ih =>
    cases item with
    | hole =>
      rw [itemPatterns] at made
      obtain ⟨qs, others, _⟩ := bind_ok.1 made
      exact ih others (by simpa using member)
    | one e' =>
      rw [itemPatterns] at made
      obtain ⟨p, first, made⟩ := bind_ok.1 made
      obtain ⟨qs, others, _⟩ := bind_ok.1 made
      by_cases same : e = e'
      · exact ⟨p, same ▸ first⟩
      · exact ih others (by simpa [same] using member)
    | spread e' =>
      rw [itemPatterns] at made
      split at made
      · rename_i last
        obtain rfl := List.isEmpty_iff.1 last
        obtain ⟨p, first, _⟩ := bind_ok.1 made
        obtain rfl : e = e' := by simpa using member
        exact ⟨p, first⟩
      · cases made

theorem memberPatterns_crowded {before after : List Member} {e : Expr} {next : Member}
    {made : List PatternProperty × Option Pattern} :
    memberPatterns (before ++ .spread e :: next :: after) ≠ .ok made := by
  intro built
  induction before generalizing made with
  | nil =>
    rw [List.nil_append, memberPatterns] at built
    cases built
  | cons member before ih =>
    cases member with
    | property key value =>
      rw [List.cons_append, memberPatterns] at built
      obtain ⟨p, _, built⟩ := bind_ok.1 built
      obtain ⟨qs, others, _⟩ := bind_ok.1 built
      exact ih others
    | spread e =>
      rw [List.cons_append, memberPatterns, if_neg (by simp)] at built
      cases built

theorem memberPatterns_inside {members : List Member} {key : PropertyKey} {e : Expr}
    {made : List PatternProperty × Option Pattern} (built : memberPatterns members = .ok made)
    (member : .property key e ∈ members) : ∃ p, toPattern e = .ok p := by
  induction members generalizing made with
  | nil => simp at member
  | cons first rest ih =>
    cases first with
    | property key' value =>
      rw [memberPatterns] at built
      obtain ⟨p, here, built⟩ := bind_ok.1 built
      obtain ⟨qs, others, _⟩ := bind_ok.1 built
      rcases List.mem_cons.1 member with same | later
      · cases same
        exact ⟨p, here⟩
      · exact ih others later
    | spread e' =>
      rw [memberPatterns] at built
      split at built
      · rename_i last
        obtain rfl := List.isEmpty_iff.1 last
        simp at member
      · cases built

theorem toPattern_crowded {e : Expr} (crowded : e.Crowded) (p : Pattern) : toPattern e ≠ .ok p := by
  intro made
  induction crowded generalizing p with
  | element =>
    rw [toPattern] at made
    obtain ⟨ps, made, _⟩ := map_ok.1 made
    exact itemPatterns_crowded made
  | member =>
    rw [toPattern] at made
    obtain ⟨ps, made, _⟩ := map_ok.1 made
    exact memberPatterns_crowded made
  | insideElement member _ ih =>
    rw [toPattern] at made
    obtain ⟨ps, made, _⟩ := map_ok.1 made
    obtain ⟨q, read⟩ := itemPatterns_inside made member
    exact ih q read
  | insideMember member _ ih =>
    rw [toPattern] at made
    obtain ⟨ps, made, _⟩ := map_ok.1 made
    obtain ⟨q, read⟩ := memberPatterns_inside made member
    exact ih q read

/-! ### Parts in order -/

theorem mem_each {f : Part → Build α} {as : List α} {p : Part} {a : α}
    (made : each f parts = .ok as)
    (member : p ∈ parts) (read : f p = .ok a) : a ∈ as := by
  induction parts generalizing as with
  | nil => cases member
  | cons q rest ih =>
    obtain ⟨b, first, made⟩ := bind_ok.1 made
    obtain ⟨bs, others, done⟩ := bind_ok.1 made
    cases done
    rcases List.mem_cons.1 member with rfl | member
    · rw [read] at first
      cases first
      exact List.mem_cons_self
    · exact List.mem_cons_of_mem _ (ih others member)

theorem read_each {f : Part → Build α} {as : List α} {p : Part} (made : each f parts = .ok as)
    (member : p ∈ parts) : ∃ a, f p = .ok a := by
  induction parts generalizing as with
  | nil => cases member
  | cons q rest ih =>
    obtain ⟨b, first, made⟩ := bind_ok.1 made
    obtain ⟨bs, others, _⟩ := bind_ok.1 made
    rcases List.mem_cons.1 member with rfl | member
    · exact ⟨b, first⟩
    · exact ih others member

/-- What is told of values in order is told of the parts that they were read from. -/
theorem each_pairwise {f : Part → Build α} {as : List α} {R : α → α → Prop}
    (made : each f parts = .ok as) (pairwise : as.Pairwise R) :
    parts.Pairwise fun p q => ∀ a b, f p = .ok a → f q = .ok b → R a b := by
  induction parts generalizing as with
  | nil => exact .nil
  | cons p rest ih =>
    obtain ⟨a, first, made⟩ := bind_ok.1 made
    obtain ⟨as, others, done⟩ := bind_ok.1 made
    cases done
    obtain ⟨here, later⟩ := List.pairwise_cons.1 pairwise
    refine .cons (fun q member a' b read read' => ?_) (ih others later)
    rw [read] at first
    cases first
    exact here b (mem_each others member read')

/-- Two of the parts, of which one comes first. -/
theorem pairwise_of_eq {R : Part → Part → Prop} {before after : List (Grammar.Node Rule)}
    {n s t : Grammar.Node Rule} (pairwise : (n.children.map build).Pairwise R)
    (same : n.children = before ++ s :: after) (member : t ∈ after) : R (build s) (build t) := by
  rw [same, List.map_append, List.map_cons] at pairwise
  obtain ⟨_, later, _⟩ := List.pairwise_append.1 pairwise
  exact (List.pairwise_cons.1 later).1 _ (List.mem_map_of_mem member)

theorem pattern_rest {p : Part} {q : Pattern} {parts : List Part}
    (same : p.piece = restElement span parts) (made : p.pattern = .ok q) : isRest q = true := by
  obtain ⟨piece, read, made⟩ := bind_ok.1 made
  rw [same] at read
  unfold restElement at read
  split at read
  · obtain ⟨target, _, done⟩ := bind_ok.1 read
    cases done
    cases made
    rfl
  · cases read

/-! ### Nodes -/

variable {source : String} {n m : Grammar.Node Rule}

section Lists

variable {item : Peg Rule} {rs : List Rule} {P : Rule → Prop}

theorem admits_repeated (each : ∀ rs, item.Admits script rs → ∀ x ∈ rs, P x)
    (admitted : (Peg.star (.seq (Grammar.lit ",") item)).Admits script rs) : ∀ x ∈ rs, P x := by
  generalize same : Peg.star (.seq (Grammar.lit ",") item) = e at admitted
  induction admitted with
  | none => simp
  | more _ here ih =>
    cases same
    obtain ⟨_, _, rfl, comma, single⟩ := Peg.admits_seq.1 here
    obtain rfl := admits_lit comma
    exact List.forall_mem_append.2 ⟨ih rfl, each _ single⟩
  | _ => cases same

theorem admits_list (each : ∀ rs, item.Admits script rs → ∀ x ∈ rs, P x)
    (admitted : (Grammar.list item).Admits script rs) : ∀ x ∈ rs, P x := by
  obtain ⟨_, _, rfl, first, others⟩ := Peg.admits_seq.1 admitted
  exact List.forall_mem_append.2 ⟨each _ first, admits_repeated each others⟩

theorem admits_optionalList (each : ∀ rs, item.Admits script rs → ∀ x ∈ rs, P x)
    (admitted : (Grammar.optionalList item).Admits script rs) : ∀ x ∈ rs, P x := by
  rcases Peg.admits_opt.1 admitted with rfl | admitted
  · simp
  · obtain ⟨_, _, rfl, first, admitted⟩ := Peg.admits_seq.1 admitted
    obtain ⟨_, _, rfl, others, last⟩ := Peg.admits_seq.1 admitted
    rcases Peg.admits_opt.1 last with rfl | comma
    · simpa using List.forall_mem_append.2 ⟨each _ first, admits_repeated each others⟩
    · obtain rfl := admits_lit comma
      simpa using List.forall_mem_append.2 ⟨each _ first, admits_repeated each others⟩

end Lists

/-- The children of an array pattern are slots. -/
theorem arrayBinding_slots (lies : n.Lies script source) (array : n.rule = .arrayBinding) :
    ∀ s ∈ n.children, s.rule = .arrayBindingSlot := by
  cases lies with
  | intro _ _ _ admitted _ =>
    rw [array] at admitted
    have rules := admitted (by decide)
    obtain ⟨_, _, split, first, rules⟩ := Peg.admits_seq.1 rules
    obtain ⟨_, _, rfl, slots, last⟩ := Peg.admits_seq.1 rules
    rw [admits_lit first, admits_lit last, List.nil_append, List.append_nil] at split
    intro s member
    have there := List.mem_map_of_mem (f := Grammar.Node.rule) member
    rw [split] at there
    rcases Peg.admits_opt.1 slots with rfl | slots
    · cases there
    · refine admits_list (P := (· = .arrayBindingSlot)) (fun rs single => ?_) slots _ there
      rw [(Peg.admits_rule (by decide)).1 single]
      simp

/-- What a slot that is built holds: a rest if a rest stands in it, and something if anything
does. -/
theorem slotPattern_some {s : Grammar.Node Rule} {slot : Option Pattern}
    (kind : s.rule = .arrayBindingSlot) (made : slotPattern (build s) = .ok slot) :
    (slot = none ↔ s.children = []) ∧
      (s.children.map Grammar.Node.rule = [.restElement] → slot.any isRest = true) := by
  obtain ⟨piece, made, read⟩ := bind_ok.1 made
  rw [build_eq, kind] at made
  cases children : s.children with
  | nil =>
    rw [children] at made
    cases made
    cases read
    simp
  | cons c others =>
    rw [children] at made
    cases others with
    | cons d more => cases made
    | nil =>
      obtain ⟨q, pattern, done⟩ := bind_ok.1 made
      cases done
      cases read
      refine ⟨by simp, fun rest => ?_⟩
      have rule : c.rule = .restElement := by simpa using rest
      have piece : (build c).piece = restElement c.span (c.children.map build) := by
        rw [build_eq, rule]
        rfl
      exact pattern_rest piece pattern

/-- An array pattern is built from its slots if at most empty ones come after a rest. -/
theorem arrayBinding_ok {slots : List (Option Pattern)}
    (read : each slotPattern parts = .ok slots) :
    (∃ made, arrayBinding span parts = .ok made) ↔
      slots.Pairwise fun p q => p.any isRest = true → q = none := by
  have same : (dropLastElision slots).filterMap id = slots.filterMap id := by
    rw [filterMap_dropLastElision, List.filterMap_eq_flatMap_toList]
    rfl
  rw [← rests_filterMap, ← same, ← checkRestLast_ok]
  constructor
  · rintro ⟨made, built⟩
    obtain ⟨slots', read', built⟩ := bind_ok.1 built
    rw [read] at read'
    cases read'
    obtain ⟨_, checked, _⟩ := bind_ok.1 built
    exact checked
  · intro checked
    exact ⟨_, bind_ok.2 ⟨slots, read, bind_ok.2 ⟨(), checked, rfl⟩⟩⟩

theorem slot_not_built {s t : Grammar.Node Rule} {before after : List (Grammar.Node Rule)}
    (lies : n.Lies script source) (array : n.rule = .arrayBinding)
    (children : n.children = before ++ s :: after)
    (rest : s.children.map Grammar.Node.rule = [.restElement]) (member : t ∈ after)
    (some : t.children ≠ []) : ¬(build n).Built := by
  rintro ⟨piece, made⟩
  rw [build_eq, array] at made
  obtain ⟨slots, read, _⟩ := bind_ok.1 made
  have kinds := arrayBinding_slots lies array
  have ordered := (arrayBinding_ok read).1 ⟨piece, made⟩
  have apart := pairwise_of_eq (each_pairwise read ordered) children member
  obtain ⟨first, here⟩ := read_each read (p := build s) (List.mem_map_of_mem (by simp [children]))
  obtain ⟨second, there⟩ := read_each read (p := build t)
    (List.mem_map_of_mem (by simp [children, member]))
  have rests := (slotPattern_some (kinds s (by simp [children])) here).2 rest
  have empty := (slotPattern_some (kinds t (by simp [children, member])) there).1.1
  exact some (empty (apart first second here there rests))

theorem parameter_not_built {r next : Grammar.Node Rule} {before after : List (Grammar.Node Rule)}
    (list : n.rule = .parameters) (children : n.children = before ++ r :: next :: after)
    (rest : r.rule = .restElement) : ¬(build n).Built := by
  rintro ⟨piece, made⟩
  rw [build_eq, list] at made
  obtain ⟨params, read, made⟩ := bind_ok.1 made
  obtain ⟨_, checked, _⟩ := bind_ok.1 made
  have apart := pairwise_of_eq (each_pairwise read (checkRestLast_ok.1 checked)) children
    List.mem_cons_self
  obtain ⟨first, here⟩ := read_each read (p := build r) (List.mem_map_of_mem (by simp [children]))
  obtain ⟨second, there⟩ :=
    read_each read (p := build next) (List.mem_map_of_mem (by simp [children]))
  have same : (build r).piece = restElement r.span (r.children.map build) := by
    rw [build_eq, rest]
    rfl
  have rests := pattern_rest same here
  rw [apart first second here there] at rests
  cases rests

theorem bindingMembers_tail {p : Part} {rest : List Part}
    {made : List PatternProperty × Option Pattern} (built : bindingMembers (p :: rest) = .ok made) :
    rest = [] ∨ ∃ more, bindingMembers rest = .ok more := by
  obtain ⟨piece, _, built⟩ := bind_ok.1 built
  split at built
  · obtain ⟨more, others, _⟩ := bind_ok.1 built
    exact .inr ⟨more, others⟩
  · obtain ⟨q, _, built⟩ := bind_ok.1 built
    split at built
    · split at built
      · exact .inl rfl
      · cases built
    · cases built
    · obtain ⟨_, _, built⟩ := bind_ok.1 built
      obtain ⟨more, others, _⟩ := bind_ok.1 built
      exact .inr ⟨more, others⟩

theorem bindingMembers_crowded {before after : List Part} {p next : Part} {inner : List Part}
    {made : List PatternProperty × Option Pattern} (rest : p.piece = restElement span inner) :
    bindingMembers (before ++ p :: next :: after) ≠ .ok made := by
  intro built
  induction before generalizing made with
  | nil =>
    obtain ⟨piece, read, built⟩ := bind_ok.1 built
    rw [rest] at read
    unfold restElement at read
    split at read
    · obtain ⟨target, _, done⟩ := bind_ok.1 read
      cases done
      obtain ⟨q, pattern, built⟩ := bind_ok.1 built
      have rests := pattern_rest rest pattern
      cases q with
      | rest span target => cases target <;> cases built
      | _ => cases rests
    · cases read
  | cons q before ih =>
    rcases bindingMembers_tail built with none | ⟨more, others⟩
    · simp at none
    · exact ih others

theorem property_not_built {r next : Grammar.Node Rule} {before after : List (Grammar.Node Rule)}
    (object : n.rule = .objectBinding) (children : n.children = before ++ r :: next :: after)
    (rest : r.rule = .restElement) : ¬(build n).Built := by
  rintro ⟨piece, made⟩
  rw [build_eq, object, children, List.map_append] at made
  obtain ⟨members, read, _⟩ := bind_ok.1 made
  have same : (build r).piece = restElement r.span (r.children.map build) := by
    rw [build_eq, rest]
    rfl
  exact bindingMembers_crowded same read

theorem target_not_built {left operator value : Grammar.Node Rule} {e : Expr}
    (assigns : n.rule = .assignment) (children : n.children = [left, operator, value])
    (plain : (build operator).piece = .ok (.assignOp .plain)) (target : (build left).expr = .ok e)
    (crowded : e.Crowded) : ¬(build n).Built := by
  rintro ⟨piece, made⟩
  rw [build_eq, assigns, children] at made
  obtain ⟨e', read, made⟩ := bind_ok.1 made
  rw [target] at read
  cases read
  obtain ⟨op, read, made⟩ := bind_ok.1 made
  rw [plain] at read
  cases read
  obtain ⟨p, pattern, _⟩ := bind_ok.1 made
  exact toPattern_crowded crowded p pattern

theorem each_not_built {left : Grammar.Node Rule} {e : Expr} (loops : n.rule = .forEachLeft)
    (children : n.children = [left]) (target : (build left).expr = .ok e) (crowded : e.Crowded) :
    ¬(build n).Built := by
  rintro ⟨piece, made⟩
  rw [build_eq, loops, children] at made
  obtain ⟨inner, read, made⟩ := bind_ok.1 made
  split at made
  · -- a declaration is no expression
    obtain ⟨_, read', target⟩ := bind_ok.1 target
    rw [read] at read'
    cases read'
    cases target
  · obtain ⟨e', read', made⟩ := bind_ok.1 made
    rw [target] at read'
    cases read'
    obtain ⟨p, pattern, _⟩ := bind_ok.1 made
    exact toPattern_crowded crowded p pattern

/-- A crowded node is not built. -/
theorem crowded_not_built (lies : n.Lies script source) (crowded : n.Crowded) :
    ¬(build n).Built := by
  cases crowded with
  | slot array children rest member some =>
    exact slot_not_built lies array children rest member some
  | parameter list children rest => exact parameter_not_built list children rest
  | property object children rest => exact property_not_built object children rest
  | target assigns children plain target crowded =>
    exact target_not_built assigns children plain target crowded
  | each loops children target crowded => exact each_not_built loops children target crowded

end Tree

end Scriptlet
