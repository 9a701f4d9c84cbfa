import Scriptlet.Native.Text
import Scriptlet.Proofs.Eval.Equality
import Scriptlet.Proofs.Native.Split
import Scriptlet.Proofs.Number.Place
import Scriptlet.Proofs.Text.Occurrence

/-!
Searching texts in three ways.

A text is searched for the first place of another one from some place on, it is asked whether it has
the other one in it, and whether the other one stands at a given place. Main statement:
`searches_agree`.
-/

namespace Scriptlet

namespace Native

open Eval

variable {r : Recursion} {s t : String} {st : State}

/-- The place that a number stands for. -/
def placeOfNumber (x : Float) : Nat :=
  Number.toCount maxCount (Number.toInteger x)

theorem placeOfNumber_index {i : Nat} (small : i < 2 ^ 53) : placeOfNumber (Float.ofNat i) = i := by
  rw [placeOfNumber, Number.toInteger_ofNat small, Number.toCount_ofNat small]
  exact Nat.min_eq_right (Nat.le_trans (Nat.le_of_lt small) (by decide))

theorem indexOf_from_eq (r : Recursion) (s t : String) (x : Float) (st : State) :
    textMethod r .indexOf (.string s) [.string t, .number x] st =
      .ok (indexOrMinusOne (Text.find? s.toList t.toList (placeOfNumber x))) st :=
  rfl

theorem startsWith_from_eq (r : Recursion) (s t : String) (x : Float) (st : State) :
    textMethod r .startsWith (.string s) [.string t, .number x] st =
      .ok (.boolean (t.toList.isPrefixOf (s.toList.drop (placeOfNumber x)))) st :=
  rfl

theorem includes_eq (r : Recursion) (s t : String) (st : State) :
    textMethod r .includes (.string s) [.string t] st =
      .ok (.boolean (Text.occurs t.toList s.toList)) st :=
  rfl

theorem indexOrMinusOne_beq (found : Option Nat) :
    (indexOrMinusOne found).strictEquals (.number (-1.0)) = found.isNone := by
  cases found with
  | none => decide
  | some i => exact Number.ofNat_beq_minusOne i

theorem indexOrMinusOne_beq_index {found : Option Nat} {i : Nat} (small : i < 2 ^ 53)
    (near : ∀ j ∈ found, j < 2 ^ 53) :
    (indexOrMinusOne found).strictEquals (index i) = true ↔ found = some i := by
  cases found with
  | none =>
    have apart : (indexOrMinusOne none).strictEquals (index i) = false := by
      rw [Value.strictEquals_comm]
      exact Number.ofNat_beq_minusOne i
    simp [apart]
  | some j =>
    rw [Option.some.injEq]
    exact Number.ofNat_beq_iff (near j rfl) small

end Native

/-! ### Main statement -/

open Native Eval

/-- The search from a place on tries no slice out of range, and answers the least place from there
on at which the other text stands, or nothing if there is none; the empty text is found where the
search starts, or at the end. A text has another one in it, as bytes, exactly if the search does not
answer minus one. At a place within the text the other text stands exactly if the search from there
answers that place; counts from `2 ^ 53` on are rounded when they are answered as numbers. -/
theorem searches_agree (r : Recursion) (s t : String) (st : State) :
    (∀ start, Text.trySlices? s.toList t.toList start = some (Text.find? s.toList t.toList start) ∧
      (t = "" → Text.find? s.toList t.toList start = some (min start s.length)) ∧
      (t ≠ "" →
        (∀ i, Text.find? s.toList t.toList start = some i ↔
          IsLeast {i | start ≤ i ∧ t.toList <+: s.toList.drop i} i) ∧
        (Text.find? s.toList t.toList start = none ↔ ∀ i ≥ start, ¬t.toList <+: s.toList.drop i))) ∧
    (∃ found has, textMethod r .indexOf (.string s) [.string t] st = .ok found st ∧
      textMethod r .includes (.string s) [.string t] st = .ok (.boolean has) st ∧
      (has = true ↔ found.strictEquals (.number (-1.0)) = false) ∧
      (has = true ↔ t.toUTF8.data.toList <:+: s.toUTF8.data.toList)) ∧
    (∀ x, placeOfNumber x ≤ s.length → ∃ found starts,
      textMethod r .indexOf (.string s) [.string t, .number x] st = .ok (indexOrMinusOne found) st ∧
      textMethod r .startsWith (.string s) [.string t, .number x] st = .ok (.boolean starts) st ∧
      (starts = true ↔ found = some (placeOfNumber x))) ∧
    (s.length < 2 ^ 53 → ∀ i ≤ s.length, ∃ found starts,
      textMethod r .indexOf (.string s) [.string t, index i] st = .ok found st ∧
      textMethod r .startsWith (.string s) [.string t, index i] st = .ok (.boolean starts) st ∧
      (starts = true ↔ found.strictEquals (index i) = true)) := by
  have nonempty : t ≠ "" → t.toList ≠ [] := String.toList_eq_nil_iff.not.2
  refine ⟨fun start => ⟨Text.trySlices?_eq .., ?_, fun ne => ⟨fun i => ?_, ?_⟩⟩, ?_,
    fun x inside => ?_, fun small i inside => ?_⟩
  · rintro rfl
    exact Text.find?_nil s.toList start
  · exact Text.find?_eq_some_iff (nonempty ne)
  · exact Text.find?_eq_none_iff (nonempty ne)
  · refine ⟨_, _, indexOf_eq r s t st, includes_eq r s t st, ?_, ?_⟩
    · rw [indexOrMinusOne_beq, Text.occurs_iff_find?, ← Option.isSome_iff_ne_none,
        ← Option.not_isSome]
      simp
    · rw [Text.toUTF8_eq, Text.toUTF8_eq, Text.encode_infix_iff, Text.occurs_iff_isInfix]
  · exact ⟨_, _, indexOf_from_eq r s t x st, startsWith_from_eq r s t x st,
      Text.isPrefixOf_drop_iff inside⟩
  · have count : i < 2 ^ 53 := Nat.lt_of_le_of_lt inside small
    refine ⟨_, _, indexOf_from_eq r s t (Float.ofNat i) st,
      startsWith_from_eq r s t (Float.ofNat i) st, ?_⟩
    rw [placeOfNumber_index count, indexOrMinusOne_beq_index count fun j found => ?_]
    · exact Text.isPrefixOf_drop_iff inside
    · exact Nat.lt_of_le_of_lt (Text.find?_le found) small

/-- A word that comes twice is found at its second place from the first one on, and stands there. -/
theorem searches_agree_accents :
    let st : State := { heap := {}, scopes := .new, realm := default }
    "llo" ≠ "" ∧ "héllo héllo".length < 2 ^ 53 ∧ 8 ≤ "héllo héllo".length ∧
      IsLeast {i | 3 ≤ i ∧ "llo".toList <+: "héllo héllo".toList.drop i} 8 ∧
      ∃ found, textMethod (recursion 0) .indexOf (.string "héllo héllo")
        [.string "llo", index 8] st = .ok found st ∧
        found.strictEquals (index 8) = true := by
  intro st
  have ne : "llo" ≠ "" := by decide
  have small : "héllo héllo".length < 2 ^ 53 := by decide
  have inside : 8 ≤ "héllo héllo".length := by decide
  obtain ⟨search, -, -, placed⟩ := searches_agree (recursion 0) "héllo héllo" "llo" st
  obtain ⟨found, starts, indexed, started, same⟩ := placed small 8 inside
  refine ⟨ne, small, inside, (((search 3).2.2 ne).1 8).1 (by decide), found, indexed, same.1 ?_⟩
  have stands : textMethod (recursion 0) .startsWith (.string "héllo héllo")
    [.string "llo", index 8] st =
      .ok (.boolean true) st := by
    have here : "llo".toList.isPrefixOf ("héllo héllo".toList.drop 8) = true := by decide
    rw [index, startsWith_from_eq, placeOfNumber_index (by decide), here]
  rw [stands] at started
  cases started
  rfl

end Scriptlet
