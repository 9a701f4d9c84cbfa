import Scriptlet.Number.Layout
import Scriptlet.Tree.Binding

/-!
Patterns made of names.

The patterns that a declaration can have whose keys are known from the text alone, with what they
declare.
-/

namespace Scriptlet

/-- The key that is known from the text alone. -/
def PropertyKey.text? : PropertyKey → Option String
  | .static text => some text
  | .number x => some (Number.text x)
  | .computed _ => none

/-- The key of a property, where it is known. -/
def PatternProperty.text (p : PatternProperty) : String :=
  p.key.text?.getD ""

namespace Pattern

/-- What the values of an array pattern's element go to. -/
def inner : Pattern → Pattern
  | .rest _ target => target
  | p => p

mutual

/-- The names that a pattern declares, from left to right. -/
def names : Pattern → List String
  | .identifier _ name => [name.text]
  | .array _ elements => elementNames elements
  | .object _ properties others => propertyNames properties ++ optionNames others
  | .withDefault _ target _ => target.names
  | .rest _ target => target.names
  | .member _ _ _ => []

def optionNames : Option Pattern → List String
  | none => []
  | some p => p.names

def elementNames : List (Option Pattern) → List String
  | [] => []
  | e :: es => optionNames e ++ elementNames es

def propertyNames : List PatternProperty → List String
  | [] => []
  | ⟨_, p⟩ :: ps => p.names ++ propertyNames ps

end

mutual

/-- How deep patterns are nested. -/
def depth : Pattern → Nat
  | .identifier _ _ => 1
  | .array _ elements => elementDepth elements + 1
  | .object _ properties others => max (propertyDepth properties) (optionDepth others) + 1
  | .withDefault _ target _ => target.depth + 1
  | .rest _ target => target.depth + 1
  | .member _ _ _ => 1

def optionDepth : Option Pattern → Nat
  | none => 0
  | some p => p.depth

def elementDepth : List (Option Pattern) → Nat
  | [] => 0
  | e :: es => max (optionDepth e) (elementDepth es)

def propertyDepth : List PatternProperty → Nat
  | [] => 0
  | ⟨_, p⟩ :: ps => max p.depth (propertyDepth ps)

end

/-- Patterns of names, arrays, and objects with known keys other than `prototype`, which functions
come by when it is read; with or without defaults. -/
inductive Plain (defaults : Prop) : Pattern → Prop where
  | identifier (span : Span) (name : Name) : Plain defaults (.identifier span name)
  | array (span : Span) {elements : List (Option Pattern)} :
      (∀ p, some p ∈ elements → Plain defaults p.inner) → Plain defaults (.array span elements)
  | object (span : Span) {properties : List PatternProperty} {rest : Option Pattern} :
      (∀ p ∈ properties, p.key.text? = some p.text ∧ p.text ≠ "prototype") →
      (∀ p ∈ properties, Plain defaults p.value) → (∀ p, rest = some p → Plain defaults p) →
      Plain defaults (.object span properties rest)
  | withDefault (span : Span) {target : Pattern} (value : Expr) :
      defaults → Plain defaults target → Plain defaults (.withDefault span target value)

theorem Plain.mono {one more : Prop} {p : Pattern} (weaker : one → more) (plain : p.Plain one) :
    p.Plain more := by
  induction plain with
  | identifier span name => exact .identifier span name
  | array span _ ih => exact .array span ih
  | object span keys _ _ ih others => exact .object span keys ih others
  | withDefault span value holds _ ih => exact .withDefault span value (weaker holds) ih

@[simp] theorem elementNames_cons (e : Option Pattern) (es : List (Option Pattern)) :
    elementNames (e :: es) = optionNames e ++ elementNames es := rfl

@[simp] theorem propertyNames_cons (p : PatternProperty) (ps : List PatternProperty) :
    propertyNames (p :: ps) = p.value.names ++ propertyNames ps := by
  cases p
  rfl

theorem names_inner (p : Pattern) : p.inner.names = p.names := by
  cases p with
  | rest => rw [inner, names]
  | _ => rfl

@[simp] theorem propertyDepth_cons (p : PatternProperty) (ps : List PatternProperty) :
    propertyDepth (p :: ps) = max p.value.depth (propertyDepth ps) := by
  cases p
  rfl

theorem depth_pos (p : Pattern) : 0 < p.depth := by
  cases p with
  | identifier | member => exact Nat.one_pos
  | _ => exact Nat.succ_pos _

theorem depth_inner_le (p : Pattern) : p.inner.depth ≤ p.depth := by
  cases p with
  | rest => rw [inner, depth]; exact Nat.le_succ _
  | _ => exact Nat.le_refl _

end Pattern

end Scriptlet
