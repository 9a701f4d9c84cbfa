import Scriptlet.Proofs.Tree.Crowded

/-!
Why a text with something after a rest is refused.

A node that puts something after a rest raises the mistake that a rest has to be last, unless it has
a mistake of another kind as well: a target that no pattern can stand for, or a property without a
name. Main statement: in an accepted program nothing comes after a rest, except for elisions in an
array pattern that declares names; a text that puts a parameter or another element after a rest, or
anything after a spread that is read as a pattern, is refused, for that reason unless it has another
mistake.
-/

namespace Scriptlet

open Grammar (Rule Peg script)

/-- A form of expression that can stand to the left of `=`. -/
def Expr.IsTarget : Expr → Prop
  | .identifier _ _ | .member _ _ _ | .array _ _ | .object _ _ | .assign _ .plain _ _ => True
  | _ => False

/-- An expression with a part in the place of a target that cannot be one. -/
inductive Expr.Misplaced : Expr → Prop where
  | form {e : Expr} : ¬e.IsTarget → Misplaced e
  | element {span : Span} {items : List Item} {e : Expr} :
      .one e ∈ items ∨ .spread e ∈ items → Misplaced e → Misplaced (.array span items)
  | property {span : Span} {members : List Member} {key : PropertyKey} {e : Expr} :
      .property key e ∈ members → Misplaced e → Misplaced (.object span members)
  /-- The rest of an object is a name or a member. -/
  | rest {span : Span} {members : List Member} {e : Expr} : .spread e ∈ members →
      (∀ s name, e ≠ .identifier s name) → (∀ s object key, e ≠ .member s object key) →
      Misplaced (.object span members)

/-- A pattern that names the property it reads: a name, or a name with a default. -/
def Pattern.IsNamed : Pattern → Prop
  | .identifier _ _ | .withDefault _ (.identifier _ _) _ => True
  | _ => False

/-- A node with a mistake of its own that is not about a rest. -/
inductive Grammar.Node.Odd : Grammar.Node Rule → Prop where
  | property {n c : Grammar.Node Rule} {p : Pattern} :
      n.rule = .objectBinding → c ∈ n.children → (Tree.build c).pattern = .ok p →
      Tree.isRest p = false → ¬p.IsNamed → Odd n
  | target {n left operator value : Grammar.Node Rule} {e : Expr} :
      n.rule = .assignment → n.children = [left, operator, value] →
      (Tree.build left).expr = .ok e → e.Misplaced → Odd n
  | each {n left : Grammar.Node Rule} {e : Expr} :
      n.rule = .forEachLeft → n.children = [left] → (Tree.build left).expr = .ok e →
      e.Misplaced → Odd n

namespace Tree

variable {α β : Type} {e : BuildError} {parts : List Part} {span : Span}

theorem bind_error {m : Build α} {f : α → Build β} :
    m >>= f = .error e ↔ m = .error e ∨ ∃ a, m = .ok a ∧ f a = .error e := by
  cases m with
  | error e' =>
    constructor
    · intro failed
      cases failed
      exact .inl rfl
    · rintro (failed | ⟨_, made, _⟩)
      · cases failed
        rfl
      · cases made
  | ok a =>
    refine ⟨fun failed => .inr ⟨a, rfl, failed⟩, ?_⟩
    rintro (failed | ⟨_, made, failed⟩)
    · cases failed
    · cases made
      exact failed

theorem map_error {m : Build α} {f : α → β} : m.map f = .error e ↔ m = .error e := by
  cases m with
  | error e' =>
    constructor
    · intro failed
      cases failed
      rfl
    · intro failed
      cases failed
      rfl
  | ok a => exact ⟨nofun, nofun⟩

theorem each_error {f : Part → Build α} (failed : each f parts = .error e) :
    ∃ p ∈ parts, f p = .error e := by
  induction parts with
  | nil => cases failed
  | cons p rest ih =>
    rcases bind_error.1 failed with here | ⟨a, _, failed⟩
    · exact ⟨p, List.mem_cons_self, here⟩
    · rcases bind_error.1 failed with later | ⟨as, _, done⟩
      · obtain ⟨q, member, failed⟩ := ih later
        exact ⟨q, List.mem_cons_of_mem _ member, failed⟩
      · cases done

/-! ### Targets -/

theorem simpleTarget_error {target : Expr} (failed : simpleTarget target = .error e) :
    (∀ s name, target ≠ .identifier s name) ∧ ∀ s object key, target ≠ .member s object key := by
  constructor
  · rintro s name rfl
    cases failed
  · rintro s object key rfl
    cases failed

mutual

/-- The mistake of a target is about a rest, unless a part of it cannot be a target. -/
theorem toPattern_error : (target : Expr) → toPattern target = .error e →
    e.cause = .restNotLast ∨ target.Misplaced := by
  intro target failed
  cases target with
  | identifier => cases failed
  | member => cases failed
  | array span items =>
    rw [toPattern] at failed
    rcases itemPatterns_error items (map_error.1 failed) with rest | ⟨e, member, misplaced⟩
    · exact .inl rest
    · exact .inr (.element member misplaced)
  | object span members =>
    rw [toPattern] at failed
    rcases memberPatterns_error members (map_error.1 failed) with
      rest | ⟨key, e, member, misplaced⟩ | ⟨e, member, name, place⟩
    · exact .inl rest
    · exact .inr (.property member misplaced)
    · exact .inr (.rest member name place)
  | assign span op target value =>
    cases op with
    | plain => cases failed
    | _ => exact .inr (.form fun isTarget => isTarget)
  | _ => exact .inr (.form fun isTarget => isTarget)

theorem itemPatterns_error : (items : List Item) → itemPatterns items = .error e →
    e.cause = .restNotLast ∨
      ∃ e, (.one e ∈ items ∨ .spread e ∈ items) ∧ Expr.Misplaced e := by
  intro items failed
  cases items with
  | nil => cases failed
  | cons item rest =>
    have later (failed : itemPatterns rest = .error e) : e.cause = .restNotLast ∨
        ∃ e, (.one e ∈ item :: rest ∨ .spread e ∈ item :: rest) ∧ Expr.Misplaced e := by
      rcases itemPatterns_error rest failed with last | ⟨e, member, misplaced⟩
      · exact .inl last
      · exact .inr ⟨e, member.imp (List.mem_cons_of_mem _) (List.mem_cons_of_mem _), misplaced⟩
    cases item with
    | hole =>
      rw [itemPatterns] at failed
      rcases bind_error.1 failed with failed | ⟨_, _, done⟩
      · exact later failed
      · cases done
    | one target =>
      rw [itemPatterns] at failed
      rcases bind_error.1 failed with failed | ⟨_, _, failed⟩
      · exact (toPattern_error target failed).imp_right fun misplaced =>
          ⟨target, .inl List.mem_cons_self, misplaced⟩
      · rcases bind_error.1 failed with failed | ⟨_, _, done⟩
        · exact later failed
        · cases done
    | spread target =>
      rw [itemPatterns] at failed
      split at failed
      · rcases bind_error.1 failed with failed | ⟨_, _, done⟩
        · exact (toPattern_error target failed).imp_right fun misplaced =>
            ⟨target, .inr List.mem_cons_self, misplaced⟩
        · cases done
      · cases failed
        exact .inl rfl

theorem memberPatterns_error : (members : List Member) → memberPatterns members = .error e →
    e.cause = .restNotLast ∨
      (∃ key e, .property key e ∈ members ∧ Expr.Misplaced e) ∨
      ∃ e, .spread e ∈ members ∧ (∀ s name, e ≠ .identifier s name) ∧
        ∀ s object key, e ≠ .member s object key := by
  intro members failed
  cases members with
  | nil => cases failed
  | cons member rest =>
    cases member with
    | property key target =>
      rw [memberPatterns] at failed
      rcases bind_error.1 failed with failed | ⟨_, _, failed⟩
      · exact (toPattern_error target failed).imp_right fun misplaced =>
          .inl ⟨key, target, List.mem_cons_self, misplaced⟩
      · rcases bind_error.1 failed with failed | ⟨_, _, done⟩
        · rcases memberPatterns_error rest failed with
            last | ⟨key, e, member, misplaced⟩ | ⟨e, member, forms⟩
          · exact .inl last
          · exact .inr (.inl ⟨key, e, List.mem_cons_of_mem _ member, misplaced⟩)
          · exact .inr (.inr ⟨e, List.mem_cons_of_mem _ member, forms⟩)
        · cases done
    | spread target =>
      rw [memberPatterns] at failed
      split at failed
      · rcases bind_error.1 failed with failed | ⟨_, _, done⟩
        · exact .inr (.inr ⟨target, List.mem_cons_self, simpleTarget_error failed⟩)
        · cases done
      · cases failed
        exact .inl rfl

end

/-! ### Patterns that declare names -/

theorem checkRestLast_error {ps : List Pattern} (failed : checkRestLast ps = .error e) :
    e.cause = .restNotLast := by
  induction ps with
  | nil => cases failed
  | cons p rest ih =>
    cases rest with
    | nil => cases failed
    | cons q rest =>
      rw [checkRestLast] at failed
      · split at failed
        · cases failed
          rfl
        · exact ih failed
      · simp

theorem shorthandProperty_error {p : Pattern} (failed : shorthandProperty span p = .error e) :
    ¬p.IsNamed := by
  intro named
  unfold Pattern.IsNamed at named
  split at named
  · cases failed
  · cases failed
  · exact named

/-- A member of an object pattern that is the reason for a mistake which is not about a rest: it is
not built, stands for no pattern, or does not name its property. -/
def FailsAsMember (p : Part) (e : BuildError) : Prop :=
  p.piece = .error e ∨ ∃ piece, p.piece = .ok piece ∧ (∀ q, piece ≠ .bindingProperty q) ∧
    (p.pattern = .error e ∨ ∃ q, p.pattern = .ok q ∧ isRest q = false ∧ ¬q.IsNamed)

theorem bindingMembers_error (failed : bindingMembers parts = .error e) :
    e.cause = .restNotLast ∨ ∃ p ∈ parts, FailsAsMember p e := by
  induction parts with
  | nil => cases failed
  | cons p rest ih =>
    have later (failed : bindingMembers rest = .error e) :
        e.cause = .restNotLast ∨ ∃ q ∈ p :: rest, FailsAsMember q e :=
      (ih failed).imp_right fun ⟨q, member, fails⟩ => ⟨q, List.mem_cons_of_mem p member, fails⟩
    rw [bindingMembers] at failed
    rcases bind_error.1 failed with failed | ⟨piece, made, failed⟩
    · exact .inr ⟨p, List.mem_cons_self, .inl failed⟩
    · split at failed
      · rcases bind_error.1 failed with failed | ⟨_, _, done⟩
        · exact later failed
        · cases done
      · rename_i other
        rcases bind_error.1 failed with failed | ⟨q, pattern, failed⟩
        · exact .inr ⟨p, List.mem_cons_self, .inr ⟨piece, made, other, .inl failed⟩⟩
        · split at failed
          · split at failed
            · cases failed
            · cases failed
              exact .inl rfl
          · cases failed
            exact .inl rfl
          · rename_i noRest
            rcases bind_error.1 failed with failed | ⟨_, _, failed⟩
            · refine .inr ⟨p, List.mem_cons_self, .inr ⟨piece, made, other, .inr ⟨q, pattern, ?_,
                shorthandProperty_error failed⟩⟩⟩
              cases q with
              | rest s target => exact absurd rfl (noRest s target)
              | _ => rfl
            · rcases bind_error.1 failed with failed | ⟨_, _, done⟩
              · exact later failed
              · cases done

end Tree

/-! ### Mistakes of nodes -/

/-- A node that adds a mistake to those of its children. -/
def Grammar.Node.Raises (n : Grammar.Node Rule) (e : BuildError) : Prop :=
  (Tree.build n).piece = .error e ∧ ∀ c ∈ n.children, (Tree.build c).piece ≠ .error e

namespace Tree

variable {source : String} {n m : Grammar.Node Rule} {e : BuildError}

/-- The mistake of a node is that of a node below it. -/
theorem exists_raises (lies : n.Lies script source) (failed : (build n).piece = .error e) :
    ∃ m, n.Holds m ∧ m.Raises e := by
  induction lies with
  | @intro n _ _ _ _ _ ih =>
    by_cases below : ∃ c ∈ n.children, (build c).piece = .error e
    · obtain ⟨c, member, failed'⟩ := below
      obtain ⟨m, holds, raises⟩ := ih c member failed'
      refine ⟨m, .inside ?_ member holds, raises⟩
      by_contra word
      rw [build_eq, piece_of_isWord (by simpa using word)] at failed
      cases failed
    · exact ⟨n, .refl n, failed, fun c member failed' => below ⟨c, member, failed'⟩⟩

/-- The children of a list of parameters. -/
theorem parameters_children (lies : n.Lies script source) (list : n.rule = .parameters) :
    ∀ c ∈ n.children, c.rule = .restElement ∨ c.rule = .bindingElement := by
  cases lies with
  | intro _ _ _ admitted _ =>
    rw [list] at admitted
    have rules := admits_inParens (admitted (by decide))
    intro c child
    refine admits_optionalList (P := fun r => r = .restElement ∨ r = .bindingElement)
      (fun rs single => ?_) rules _ (List.mem_map_of_mem child)
    obtain ⟨r, member, rfl⟩ := admits_oneOf (by simp) (by decide) single
    simpa using member

/-- The children of an object pattern. -/
theorem objectBinding_children (lies : n.Lies script source) (object : n.rule = .objectBinding) :
    ∀ c ∈ n.children, c.rule = .restElement ∨ c.rule = .objectBindingProperty ∨
      c.rule = .bindingElement := by
  cases lies with
  | intro _ _ _ admitted _ =>
    rw [object] at admitted
    have rules := admitted (by decide)
    obtain ⟨_, _, split, first, rules⟩ := Peg.admits_seq.1 rules
    obtain ⟨_, _, rfl, members, last⟩ := Peg.admits_seq.1 rules
    rw [admits_lit first, admits_lit last, List.nil_append, List.append_nil] at split
    intro c child
    have there := List.mem_map_of_mem (f := Grammar.Node.rule) child
    rw [split] at there
    refine admits_optionalList (P := fun r => r = .restElement ∨ r = .objectBindingProperty ∨
      r = .bindingElement) (fun rs single => ?_) members _ there
    cases single with
    | node given => exact absurd rfl given
    | silent _ single =>
      obtain ⟨r, member, rfl⟩ := admits_oneOf (by simp) (by decide) single
      simpa using member

theorem pattern_of_restElement {c : Grammar.Node Rule} {piece : Piece}
    (rest : c.rule = .restElement)
    (made : (build c).piece = .ok piece) : ∃ s q, piece = .pattern (.rest s q) := by
  rw [build_eq, rest] at made
  change restElement _ _ = _ at made
  unfold restElement at made
  split at made
  · obtain ⟨q, _, done⟩ := bind_ok.1 made
    cases done
    exact ⟨_, q, rfl⟩
  · cases made

theorem pattern_of_bindingElement {c : Grammar.Node Rule} {piece : Piece}
    (element : c.rule = .bindingElement) (made : (build c).piece = .ok piece) :
    ∃ q, piece = .pattern q := by
  rw [build_eq, element] at made
  change bindingElement _ _ = _ at made
  unfold bindingElement at made
  split at made
  · obtain ⟨q, _, done⟩ := bind_ok.1 made
    cases done
    exact ⟨q, rfl⟩
  · obtain ⟨q, _, made⟩ := bind_ok.1 made
    obtain ⟨value, _, done⟩ := bind_ok.1 made
    cases done
    exact ⟨_, rfl⟩
  · cases made

theorem pattern_eq {p : Part} {q : Pattern} (made : p.piece = .ok (.pattern q)) :
    p.pattern = .ok q := by
  unfold Part.pattern
  rw [made]
  rfl

theorem pattern_not_error {p : Part} {q : Pattern} (made : p.piece = .ok (.pattern q)) :
    p.pattern ≠ .error e := by
  rw [pattern_eq made]
  nofun

theorem slotPattern_error {s : Grammar.Node Rule} (kind : s.rule = .arrayBindingSlot)
    (failed : slotPattern (build s) = .error e) : (build s).piece = .error e := by
  rcases bind_error.1 failed with here | ⟨piece, made, failed⟩
  · exact here
  · rw [build_eq, kind] at made
    change arrayBindingSlot _ _ = _ at made
    unfold arrayBindingSlot at made
    split at made
    · cases made
      cases failed
    · obtain ⟨q, _, done⟩ := bind_ok.1 made
      cases done
      cases failed
    · cases made

theorem slot_raises (lies : n.Lies script source) (array : n.rule = .arrayBinding)
    (raises : n.Raises e) : e.cause = .restNotLast := by
  obtain ⟨failed, apart⟩ := raises
  rw [build_eq, array] at failed
  rcases bind_error.1 failed with failed | ⟨slots, _, failed⟩
  · obtain ⟨p, member, failed⟩ := each_error failed
    obtain ⟨s, child, rfl⟩ := List.mem_map.1 member
    exact absurd (slotPattern_error (arrayBinding_slots lies array s child) failed) (apart s child)
  · rcases bind_error.1 failed with failed | ⟨_, _, done⟩
    · exact checkRestLast_error failed
    · cases done

theorem parameter_raises (lies : n.Lies script source) (list : n.rule = .parameters)
    (raises : n.Raises e) : e.cause = .restNotLast := by
  obtain ⟨failed, apart⟩ := raises
  rw [build_eq, list] at failed
  rcases bind_error.1 failed with failed | ⟨params, _, failed⟩
  · obtain ⟨p, member, failed⟩ := each_error failed
    obtain ⟨c, child, rfl⟩ := List.mem_map.1 member
    exfalso
    rcases bind_error.1 failed with here | ⟨piece, made, _⟩
    · exact apart c child here
    · rcases parameters_children lies list c child with rest | element
      · obtain ⟨s, q, rfl⟩ := pattern_of_restElement rest made
        exact pattern_not_error made failed
      · obtain ⟨q, rfl⟩ := pattern_of_bindingElement element made
        exact pattern_not_error made failed
  · rcases bind_error.1 failed with failed | ⟨_, _, done⟩
    · exact checkRestLast_error failed
    · cases done

theorem property_raises (lies : n.Lies script source) (object : n.rule = .objectBinding)
    (raises : n.Raises e) : e.cause = .restNotLast ∨ n.Odd := by
  obtain ⟨failed, apart⟩ := raises
  rw [build_eq, object] at failed
  rcases bind_error.1 failed with failed | ⟨members, _, done⟩
  · rcases bindingMembers_error failed with last | ⟨p, member, fails⟩
    · exact .inl last
    · obtain ⟨c, child, rfl⟩ := List.mem_map.1 member
      rcases fails with here | ⟨piece, made, other, mistake⟩
      · exact absurd here (apart c child)
      · have pattern : ∃ q, piece = .pattern q := by
          rcases objectBinding_children lies object c child with rest | property | element
          · obtain ⟨s, q, same⟩ := pattern_of_restElement rest made
            exact ⟨_, same⟩
          · rw [build_eq, property] at made
            change objectBindingProperty _ _ = _ at made
            unfold objectBindingProperty at made
            split at made
            · obtain ⟨key, _, made⟩ := bind_ok.1 made
              obtain ⟨q, _, done⟩ := bind_ok.1 made
              cases done
              exact absurd rfl (other _)
            · cases made
          · exact pattern_of_bindingElement element made
        obtain ⟨q, rfl⟩ := pattern
        rcases mistake with failed | ⟨q, pattern, noRest, unnamed⟩
        · exact absurd failed (pattern_not_error made)
        · exact .inr (.property object child pattern noRest unnamed)
  · cases done

theorem target_raises {left operator value : Grammar.Node Rule} {target : Expr}
    (assigns : n.rule = .assignment) (children : n.children = [left, operator, value])
    (plain : (build operator).piece = .ok (.assignOp .plain))
    (read : (build left).expr = .ok target) (crowded : target.Crowded) (raises : n.Raises e) :
    e.cause = .restNotLast ∨ n.Odd := by
  obtain ⟨failed, apart⟩ := raises
  rw [build_eq, assigns, children] at failed
  rcases bind_error.1 failed with failed | ⟨target', read', failed⟩
  · rw [read] at failed
    cases failed
  · rw [read] at read'
    cases read'
    rcases bind_error.1 failed with failed | ⟨op, plain', failed⟩
    · rw [plain] at failed
      cases failed
    · rw [plain] at plain'
      cases plain'
      rcases bind_error.1 failed with failed | ⟨p, pattern, _⟩
      · exact (toPattern_error target failed).imp_right (.target assigns children read)
      · exact absurd pattern (toPattern_crowded crowded p)

theorem each_raises {left : Grammar.Node Rule} {target : Expr} (loops : n.rule = .forEachLeft)
    (children : n.children = [left]) (read : (build left).expr = .ok target)
    (crowded : target.Crowded) (raises : n.Raises e) : e.cause = .restNotLast ∨ n.Odd := by
  obtain ⟨failed, apart⟩ := raises
  rw [build_eq, loops, children] at failed
  rcases bind_error.1 failed with failed | ⟨piece, made, failed⟩
  · exact absurd failed (apart left (by simp [children]))
  · split at failed
    · cases failed
    · rcases bind_error.1 failed with failed | ⟨target', read', failed⟩
      · rw [read] at failed
        cases failed
      · rw [read] at read'
        cases read'
        rcases bind_error.1 failed with failed | ⟨p, pattern, _⟩
        · exact (toPattern_error target failed).imp_right (.each loops children read)
        · exact absurd pattern (toPattern_crowded crowded p)

/-- What a crowded node raises is about a rest, unless the node has another mistake of its own. -/
theorem crowded_raises (lies : n.Lies script source) (crowded : n.Crowded) (raises : n.Raises e) :
    e.cause = .restNotLast ∨ n.Odd := by
  cases crowded with
  | slot array => exact .inl (slot_raises lies array raises)
  | parameter list => exact .inl (parameter_raises lies list raises)
  | property object => exact property_raises lies object raises
  | target assigns children plain read crowded =>
    exact target_raises assigns children plain read crowded raises
  | each loops children read crowded => exact each_raises loops children read crowded raises

/-- A crowded node whose children are built raises that a rest has to be last. -/
theorem raises_of_crowded (lies : n.Lies script source) (crowded : n.Crowded) (even : ¬n.Odd)
    (built : ∀ c ∈ n.children, (build c).Built) : ∃ e, n.Raises e ∧ e.cause = .restNotLast := by
  cases made : (build n).piece with
  | ok piece => exact absurd ⟨piece, made⟩ (crowded_not_built lies crowded)
  | error e =>
    have raises : n.Raises e := by
      refine ⟨made, fun c child failed => ?_⟩
      obtain ⟨piece, done⟩ := built c child
      rw [failed] at done
      cases done
    exact ⟨e, raises, (crowded_raises lies crowded raises).resolve_right even⟩

end Tree

/-! ### Programs -/

/-- A text whose match has a node that is not built is refused with a mistake of one of the
nodes. -/
theorem parseProgram_of_not_built {source : String} (options : ParseOptions)
    {n m : Grammar.Node Rule} {c : Grammar.Cursor} {trail : Grammar.Trail Rule}
    (matched : script.parse .program source = .matched [n] c trail) (holds : n.Holds m)
    (fails : ¬(Tree.build m).Built) :
    ∃ e, parseProgram source options = .error (e.within source) ∧ ∃ m', n.Holds m' ∧
    m'.Raises e := by
  have sound := Grammar.RuleSet.parse_sound script .program source
  rw [matched] at sound
  have lies := sound.1.lie n (List.mem_singleton_self n)
  cases made : (Tree.build n).piece with
  | ok piece => exact absurd (Tree.built_of_holds holds lies ⟨piece, made⟩) fails
  | error e =>
    refine ⟨e, ?_, Tree.exists_raises lies made⟩
    have statements : Tree.statements n = .error e := by
      unfold Tree.statements
      rw [made]
      rfl
    simp only [parseProgram, matched, statements]

/-- Where rests stand. In an accepted program nothing comes after a rest, except for elisions in an
array pattern that declares names. A node that puts a parameter, an element or a property after a
rest, or anything after a spread that is read as a pattern, raises that a rest has to be last once
everything below it is built, if it has no other mistake of its own; the text is refused in any
case, and for that reason if no mistake of another kind is raised elsewhere. An array pattern that
declares names is built from its slots if and only if no other pattern comes after a rest. -/
theorem rests_placed (source : String) (options : ParseOptions) :
    (∀ program, parseProgram source options = .ok program →
      ∀ c, (Construct.program program).Contains c → c.RestsLast) ∧
    (∀ n c trail, script.parse .program source = .matched [n] c trail →
      ∀ m, n.Holds m → m.Crowded →
        (¬m.Odd → (∀ c ∈ m.children, (Tree.build c).Built) →
          ∃ e, m.Raises e ∧ e.cause = .restNotLast) ∧
        ∃ e, parseProgram source options = .error e ∧
          ((∀ m' e', n.Holds m' → ¬(m'.Crowded ∧ ¬m'.Odd) → m'.Raises e' →
            e'.cause = .restNotLast) →
            e.cause = .restNotLast)) ∧
    ∀ span parts slots, Tree.each Tree.slotPattern parts = .ok slots →
      ((∃ made, Tree.arrayBinding span parts = .ok made) ↔
        slots.Pairwise fun p q => p.any Tree.isRest = true → q = none) := by
  refine ⟨fun program accepted c inside => ?_, fun n c trail matched m holds crowded => ?_,
    fun span parts slots read => Tree.arrayBinding_ok read⟩
  · exact ((parseProgram_formed accepted).contains inside).restsLast
  · have sound := Grammar.RuleSet.parse_sound script .program source
    rw [matched] at sound
    have lies := sound.1.lie n (List.mem_singleton_self n)
    have fails : ¬(Tree.build m).Built := Tree.crowded_not_built (lies.of_holds holds) crowded
    obtain ⟨e, refused, m', holds', raises⟩ :=
      parseProgram_of_not_built options matched holds fails
    refine ⟨Tree.raises_of_crowded (lies.of_holds holds) crowded, _, refused, fun others => ?_⟩
    by_cases about : m'.Crowded ∧ ¬m'.Odd
    · exact (Tree.crowded_raises (lies.of_holds holds') about.1 raises).resolve_right about.2
    · exact others m' e holds' about raises

/-- Whether a list of parameters two nodes below has an element after a rest. -/
def crowdsParameters (n : Grammar.Node Rule) : Bool :=
  n.children.any fun d => !d.rule.isWord && d.children.any fun m =>
    m.rule == .parameters && m.children.map Grammar.Node.rule == [.restElement, .bindingElement]

theorem holds_of_crowdsParameters {n : Grammar.Node Rule} (program : n.rule = .program)
    (crowds : crowdsParameters n = true) : ∃ m, n.Holds m ∧ m.Crowded := by
  simp only [crowdsParameters, List.any_eq_true, Bool.and_eq_true, Bool.not_eq_true',
    beq_iff_eq] at crowds
  obtain ⟨d, member, other, m, member', list, rules⟩ := crowds
  refine ⟨m, .inside (by rw [program]; rfl) member (.inside other member' (.refl m)), ?_⟩
  obtain ⟨r, others, children, rest, more⟩ := List.map_eq_cons_iff.1 rules
  obtain ⟨next, after, split, _, _⟩ := List.map_eq_cons_iff.1 more
  have after : m.children = [] ++ r :: next :: after := by rw [children, split, List.nil_append]
  exact .parameter list after rest

/-- The node that a text is matched by. -/
def matchedNode? (source : String) : Option (Grammar.Node Rule) :=
  match script.parse .program source with
  | .matched [n] _ _ => some n
  | _ => none

/-- Whether the first statement declares an array pattern that ends with an elision after a rest. -/
def elisionAfterRest (p : Program) : Bool :=
  match p.body with
  | [.declaration _ ⟨_, [⟨.array _ [some (.rest _ _), none], _, _⟩], _⟩] => true
  | _ => false

/-- What a text is refused for. -/
def refusedFor? (source : String) : Option ParseCause :=
  match parseProgram source {} with
  | .error e => some e.cause
  | .ok _ => none

/-- An elision after the rest of a declaration is let through, and a parameter after a rest is
not. -/
theorem rests_placed_elision :
    (∃ p, parseProgram "let [...a, ,] = b" {} = .ok p ∧ elisionAfterRest p = true ∧
      ∀ c, (Construct.program p).Contains c → c.RestsLast) ∧
    ∃ e, parseProgram "function f(...a, b) {}" {} = .error e ∧ e.cause = .restNotLast := by
  constructor
  · have shape : (parseProgram "let [...a, ,] = b" {}).toOption.any elisionAfterRest = true := by
      decide +kernel
    obtain ⟨p, accepted, shape⟩ := exists_accepted shape
    exact ⟨p, accepted, shape, (rests_placed _ _).1 p accepted⟩
  · have crowds : (matchedNode? "function f(...a, b) {}").any
        (fun n => n.rule == .program && crowdsParameters n) = true := by
      decide +kernel
    unfold matchedNode? at crowds
    split at crowds
    · rename_i n c trail matched
      simp only [Option.any_some, Bool.and_eq_true, beq_iff_eq] at crowds
      obtain ⟨m, holds, crowded⟩ := holds_of_crowdsParameters crowds.1 crowds.2
      obtain ⟨e, refused, _⟩ := ((rests_placed _ {}).2.1 n c trail matched m holds crowded).2
      have cause : refusedFor? "function f(...a, b) {}" = some .restNotLast := by
        decide +kernel
      rw [refusedFor?, refused] at cause
      exact ⟨e, refused, Option.some.inj cause⟩
    · cases crowds

end Scriptlet
