import Scriptlet.Proofs.Native.Join
import Scriptlet.Proofs.Number.Whole
import Scriptlet.Proofs.Text.Search
import Scriptlet.Proofs.Value.RoundTrip
import Scriptlet.Native.Text

/-!
Splitting a text and joining the parts.

Main statement: `split_joins`, by which joining the parts of a text with the separator gives the
text back, a part has no separator in it, the first part ends where the search for the separator
does, and a limit takes that many of the parts.
-/

namespace Scriptlet.Native

open Eval

variable {r : Recursion} {s sep : String} {st : State} {texts : List String}

/-- The parts of a text between separators. -/
def partsOf (s sep : String) : List String :=
  (Text.splitAt s.toList sep.toList).map String.ofList

theorem split_eq (r : Recursion) (s sep : String) (st : State) :
    textMethod r .split (.string s) [.string sep] st =
      newArray ((partsOf s sep).map .string).toArray st :=
  rfl

theorem split_limit_eq (r : Recursion) (s sep : String) (x : Float) (st : State) :
    textMethod r .split (.string s) [.string sep, .number x] st =
      newArray (((partsOf s sep).take (Number.toUint32 x)).map .string).toArray st :=
  rfl

/-- A count that is not given is zero. -/
theorem countOf_undefined : countOf .undefined st = .ok 0 st := by
  have none : Number.toInteger (st.heap.number .undefined) = 0.0 := by
    change Number.toInteger Number.nan = 0.0
    decide
  have zero : Number.Parts.ofFloat 0.0 = .finite ⟨false, 0, Number.minExponent⟩ := by decide
  have empty : Number.toCount maxCount 0.0 = 0 := by
    simp only [Number.toCount, zero, Bool.false_eq_true, if_false, Number.magnitude_zero,
      Nat.min_zero]
  change Outcome.ok (Number.toCount maxCount (Number.toInteger (st.heap.number .undefined))) st = _
  rw [none, empty]

theorem indexOf_eq (r : Recursion) (s sep : String) (st : State) :
    textMethod r .indexOf (.string s) [.string sep] st =
      .ok (indexOrMinusOne (Text.find? s.toList sep.toList 0)) st := by
  change (countOf .undefined >>= fun start =>
    pure (indexOrMinusOne (Text.find? s.toList sep.toList start))) st = _
  rw [bind_of_ok countOf_undefined]
  rfl

theorem join_texts {ref : ArrayRef}
    (elements : st.heap.elements ref = (texts.map .string).toArray) :
    arrayMethod r .join (.array ref) [.string sep] st =
      .ok (.string (String.intercalate sep texts)) st := by
  change (elementTexts r ref [] (st.heap.elements ref).toList >>= fun texts =>
    pure (Value.string (String.intercalate sep texts))) st = _
  have plain : ∀ v ∈ (st.heap.elements ref).toList, isScripted v = false := by
    rw [elements]
    simp [isScripted]
  have shown : (texts.map Value.string).map (fun v =>
      if v.isNullish then "" else st.heap.elementText ref v) = texts := by
    rw [List.map_map]
    exact List.map_id texts
  rw [bind_of_ok (elementTexts_eq plain []), elements, shown]
  rfl

/-! ### Parts -/

theorem toList_partsOf (s sep : String) :
    (partsOf s sep).map String.toList = Text.splitAt s.toList sep.toList := by
  rw [partsOf, List.map_map]
  exact (List.map_congr_left fun _ _ => String.toList_ofList).trans (List.map_id _)

theorem intercalate_partsOf (s sep : String) : String.intercalate sep (partsOf s sep) = s := by
  refine String.toList_inj.1 ?_
  rw [String.toList_intercalate, toList_partsOf, Text.intercalate_splitAt]

theorem splits_partsOf (ne : sep ≠ "") :
    Text.Splits sep.toList s.toList ((partsOf s sep).map String.toList) := by
  rw [toList_partsOf]
  exact Text.splits_splitAt (String.toList_eq_nil_iff.not.2 ne) s.toList

/-- The search for the separator answers the length of the first part, or minus one where that is
the whole text. -/
theorem indexOf_partsOf (r : Recursion) (st : State) (ne : sep ≠ "") :
    ∃ first rest, partsOf s sep = first :: rest ∧
      ((textMethod r .indexOf (.string s) [.string sep] st = .ok (index first.length) st ∧
          first.toList <+: s.toList) ∨
        (textMethod r .indexOf (.string s) [.string sep] st = .ok (.number (-1.0)) st ∧
          first = s)) := by
  obtain ⟨part, others, eq, found⟩ :=
    (splits_partsOf (s := s) ne).find (String.toList_eq_nil_iff.not.2 ne)
  obtain ⟨first, rest, parts, rfl, rfl⟩ := List.map_eq_cons_iff.1 eq
  rw [indexOf_eq]
  refine ⟨first, rest, parts, found.imp ?_ ?_⟩
  · rintro ⟨there, head⟩
    rw [there]
    exact ⟨rfl, head⟩
  · rintro ⟨nowhere, whole⟩
    rw [nowhere]
    exact ⟨rfl, String.toList_inj.1 whole⟩

/-- Joining the parts that a text was split into. -/
theorem join_split (r : Recursion) (s sep : String) (st : State) :
    ∃ st', (textMethod r .split (.string s) [.string sep] >>= fun made =>
      arrayMethod r .join made [.string sep]) st = .ok (.string s) st' := by
  obtain ⟨ref, st', made, elements⟩ : ∃ ref st',
      textMethod r .split (.string s) [.string sep] st = .ok (.array ref) st' ∧
        st'.heap.elements ref = ((partsOf s sep).map .string).toArray :=
    ⟨_, _, split_eq r s sep st, Heap.StartOf.elements_newArray (.refl _)⟩
  exact ⟨st', by rw [bind_of_ok made, join_texts elements, intercalate_partsOf]⟩

end Native

/-! ### Main statement -/

open Native

/-- Splitting a text by a separator answers an array of texts. Joined with the separator they are
the text again. No part has a separator in it, and the first one ends where the separator is found.
With a limit the array has the first parts only. -/
theorem split_joins (r : Recursion) (s sep : String) (st : State) :
    ∃ parts : List String,
      textMethod r .split (.string s) [.string sep] st =
        Eval.newArray (parts.map .string).toArray st ∧
      (∃ st', (textMethod r .split (.string s) [.string sep] >>= fun made =>
        arrayMethod r .join made [.string sep]) st = .ok (.string s) st') ∧
      (sep ≠ "" →
        (∀ part ∈ parts, ¬sep.toList <:+: part.toList) ∧
        ∃ first rest, parts = first :: rest ∧
          ((textMethod r .indexOf (.string s) [.string sep] st = .ok (index first.length) st ∧
              first.toList <+: s.toList) ∨
            (textMethod r .indexOf (.string s) [.string sep] st = .ok (.number (-1.0)) st ∧
              first = s))) ∧
      ∀ n < 2 ^ 32, textMethod r .split (.string s) [.string sep, index n] st =
        Eval.newArray ((parts.take n).map .string).toArray st := by
  refine ⟨partsOf s sep, split_eq r s sep st, join_split r s sep st, fun ne => ⟨?_, ?_⟩,
    fun n less => ?_⟩
  · intro part member
    exact (splits_partsOf ne).absent (String.toList_eq_nil_iff.not.2 ne) _
      (List.mem_map_of_mem member)
  · exact indexOf_partsOf r st ne
  · rw [index, split_limit_eq, Number.toUint32_ofNat less]

end Scriptlet
