import Mathlib.Data.List.Induction
import Scriptlet.Proofs.Value.Enumeration
import Scriptlet.Proofs.Value.Extension

/-!
Keys that stand for places.

A key stands for an index exactly if it is the text of the index, so two keys never stand for the
same place. All keys that a value lists can be read. Main statements: `arrayIndex?_eq_some_iff` and
`Heap.isSome_get?_of_mem_ownKeys`.
-/

namespace Scriptlet

/-! ### Digits -/

theorem toDigits_digit {c : Char} (digit : c.isDigit) :
    Nat.toDigits 10 (c.toNat - '0'.toNat) = [c] := by
  obtain ⟨low, high⟩ := Char.isDigit_iff_toNat.1 digit
  have low : 48 ≤ c.toNat := low
  have high : c.toNat ≤ 57 := high
  have all : ∀ n < 10, Nat.digitChar n = Char.ofNat (48 + n) := by decide
  have zero : '0'.toNat = 48 := rfl
  rw [zero, Nat.toDigits_of_lt_base (by omega), all _ (by omega), Nat.add_sub_cancel' low,
    Char.ofNat_toNat]

/-- Digits are those of their number, unless there are zeros in front. -/
theorem toDigits_ofDigitChars {ds : List Char} (digits : ∀ c ∈ ds, c.isDigit) (given : ds ≠ [])
    (plain : ¬(1 < ds.length ∧ ds.head? = some '0')) :
    Nat.toDigits 10 (Nat.ofDigitChars 10 ds 0) = ds := by
  induction ds using List.reverseRecOn with
  | nil => exact absurd rfl given
  | append_singleton front c ih =>
    have last : c.isDigit := digits c (by simp)
    have single := toDigits_digit last
    have value : Nat.ofDigitChars 10 (front ++ [c]) 0 =
        10 * Nat.ofDigitChars 10 front 0 + (c.toNat - '0'.toNat) := by
      rw [Nat.ofDigitChars_append, Nat.ofDigitChars_cons, Nat.ofDigitChars_nil]
    rw [value]
    cases front with
    | nil => simpa using single
    | cons d front =>
      have leads : d ≠ '0' := fun zero => plain (by simp [zero])
      have before :=
        ih (fun e member => digits e (List.mem_append_left _ member)) (List.cons_ne_nil d front)
        (by simp [leads])
      -- the digits in front are not those of zero
      have positive : 0 < Nat.ofDigitChars 10 (d :: front) 0 := by
        refine Nat.pos_of_ne_zero fun zero => leads ?_
        rw [zero] at before
        exact (List.cons.inj before).1.symm
      have small : c.toNat - '0'.toNat < 10 := by
        have high : c.toNat ≤ 57 := (Char.isDigit_iff_toNat.1 last).2
        have zero : '0'.toNat = 48 := rfl
        omega
      rw [← Nat.toDigits_append_toDigits (by decide) positive small, before, single]

theorem head?_toDigits {n : Nat} (positive : 0 < n) : (Nat.toDigits 10 n).head? ≠ some '0' := by
  induction n using Nat.strongRecOn with
  | ind n ih =>
    rcases Nat.lt_or_ge n 10 with small | large
    · have all : ∀ m < 10, 0 < m → Nat.digitChar m ≠ '0' := by decide
      rw [Nat.toDigits_of_lt_base small]
      simpa using all n small positive
    · rw [Nat.toDigits_of_base_le (by decide) large,
        List.head?_append_of_ne_nil _ Nat.toDigits_ne_nil]
      exact ih (n / 10) (by omega) (by omega)

/-- The text of a number has no zeros in front. -/
theorem plain_toDigits (n : Nat) :
    ¬(1 < (Nat.toDigits 10 n).length ∧ (Nat.toDigits 10 n).head? = some '0') := by
  rintro ⟨long, zero⟩
  rcases Nat.eq_zero_or_pos n with rfl | positive
  · exact absurd long (by decide)
  · exact head?_toDigits positive zero

/-- A key stands for an index exactly if it is the index's text, and the index is not too large. -/
theorem arrayIndex?_eq_some_iff {key : String} {i : Nat} :
    arrayIndex? key = some i ↔ key = indexKey i ∧ i ≤ maxIndex := by
  have value (ds : List Char) :
      ds.foldl (fun n c => 10 * n + (c.toNat - 48)) 0 = Nat.ofDigitChars 10 ds 0 :=
    Nat.ofDigitChars_eq_foldl.symm
  have text : key = indexKey i ↔ key.toList = Nat.toDigits 10 i := by
    rw [← String.toList_inj, indexKey, Nat.toString_eq_repr, Nat.toList_repr]
  rw [text]
  simp only [arrayIndex?, value]
  split
  next odd =>
    refine iff_of_false (by simp) ?_
    rintro ⟨same, -⟩
    rw [same] at odd
    simp only [Bool.or_eq_true, Bool.and_eq_true, decide_eq_true_eq, beq_iff_eq] at odd
    rcases odd with (empty | zeros) | other
    · exact Nat.toDigits_ne_nil (List.isEmpty_iff.1 empty)
    · exact plain_toDigits i zeros
    · obtain ⟨c, member, none⟩ : ∃ c ∈ Nat.toDigits 10 i, ¬c.isDigit = true := by simpa using other
      exact none (Nat.isDigit_of_mem_toDigits (by decide) (by decide) member)
  next spelled =>
    simp only [Bool.or_eq_true, Bool.and_eq_true, decide_eq_true_eq, beq_iff_eq, not_or] at spelled
    obtain ⟨⟨given, plain⟩, digits⟩ := spelled
    have back : Nat.toDigits 10 (Nat.ofDigitChars 10 key.toList 0) = key.toList :=
      toDigits_ofDigitChars (by simpa using digits) (by simpa using given) plain
    constructor
    · intro found
      split at found
      · cases found
        exact ⟨back.symm, ‹_›⟩
      · cases found
    · rintro ⟨same, fits⟩
      rw [same, Nat.ofDigitChars_ten_toDigits, if_pos fits]

theorem arrayIndex?_injective {key other : String} {i : Nat} (first : arrayIndex? key = some i)
    (second : arrayIndex? other = some i) : key = other :=
  (arrayIndex?_eq_some_iff.1 first).1.trans (arrayIndex?_eq_some_iff.1 second).1.symm

theorem index_ne_length {key : String} {i : Nat} (spelled : arrayIndex? key = some i) :
    key ≠ "length" := by
  rintro rfl
  have plain : arrayIndex? "length" = none := by decide
  cases plain.symm.trans spelled

theorem indexKey_ne_length (i : Nat) : indexKey i ≠ "length" := by
  intro same
  have digits : Nat.toDigits 10 i = "length".toList := by
    rw [← same, indexKey, Nat.toString_eq_repr, Nat.toList_repr]
  have letter : 'l' ∈ Nat.toDigits 10 i := by
    rw [digits]
    decide
  have digit := Nat.isDigit_of_mem_toDigits (by decide) (by decide) letter
  revert digit
  decide

theorem arrayIndex?_indexKey (i : Nat) :
    arrayIndex? (indexKey i) = if i ≤ maxIndex then some i else none := by
  split
  · exact arrayIndex?_eq_some_iff.2 ⟨rfl, ‹_›⟩
  · rename_i large
    cases spelled : arrayIndex? (indexKey i) with
    | none => rfl
    | some j =>
      obtain ⟨same, fits⟩ := arrayIndex?_eq_some_iff.1 spelled
      exact absurd (Heap.indexKey_injective same ▸ fits) large

/-! ### Listed keys -/

namespace Heap

variable {h : Heap} {v w : Value} {key : String}

/-- Every place of a value can be told by a key. A machine has no room for longer arrays and
texts. -/
def Indexable (h : Heap) : Value → Prop
  | .array r => (h.elements r).size ≤ maxIndex + 1
  | .string s => s.length ≤ maxIndex + 1
  | _ => True

/-- An object's own property is the nearest one. -/
theorem lookup?_own {r : ObjectRef} (own : (h.object r).props.get? key = some w) :
    h.lookup? r key = some w := by
  have exist : h.objects.size ≠ 0 := by
    intro empty
    have none : h.object r = {} := by simp [object, Array.eq_empty_of_size_eq_zero empty]
    rw [none] at own
    cases own
  obtain ⟨fuel, size⟩ := Nat.exists_eq_succ_of_ne_zero exist
  rw [lookup?, chain, size, chainFrom, List.findSome?_cons, own]

theorem exists_index_of_listed {n : Nat} (listed : key ∈ (List.range n).map indexKey)
    (fits : n ≤ maxIndex + 1) :
    ∃ i < n, arrayIndex? key = some i := by
  obtain ⟨i, inside, rfl⟩ := List.mem_map.1 listed
  have inside := List.mem_range.1 inside
  exact
    ⟨i, inside, arrayIndex?_eq_some_iff.2 ⟨rfl, Nat.le_of_lt_succ (Nat.lt_of_lt_of_le inside fits)⟩⟩

theorem isSome_get?_of_mem_ownKeys (fits : h.Indexable v) (listed : key ∈ h.ownKeys v) :
    (h.get? v key).isSome := by
  cases v with
  | array r =>
    obtain ⟨i, inside, spelled⟩ := exists_index_of_listed listed fits
    simp [get?, index_ne_length spelled, spelled, inside]
  | string s =>
    obtain ⟨i, inside, spelled⟩ := exists_index_of_listed listed fits
    rw [← String.length_toList] at inside
    simp [get?, index_ne_length spelled, spelled, inside]
  | object r =>
    obtain ⟨w, own⟩ := Option.isSome_iff_exists.1 (Table.isSome_get?_iff.2 listed)
    simp [get?, lookup?_own own]
  | function r =>
    cases found : h.function? r with
    | none => simp [ownKeys, found] at listed
    | some f =>
      have own : (f.props.get? key).isSome :=
        Table.isSome_get?_iff.2 (by simpa [ownKeys, found] using listed)
      obtain ⟨w, own⟩ := Option.isSome_iff_exists.1 own
      simp [get?, found, FunctionObject.get?, own]
  | _ => cases listed

/-! ### Own properties -/

/-- Values under the keys of their places. A place too large for a key has nothing to read. -/
def placed (vs : List Value) : List (String × Value) :=
  vs.mapIdx fun i v => (indexKey i, if i ≤ maxIndex then v else .undefined)

/-- The characters of a text as values. -/
def characters (text : String) : List Value :=
  text.toList.map fun c => .string c.toString

theorem placed_eq {vs : List Value} {n : Nat} (length : vs.length = n)
    (read : String → Option Value)
    (at_ : ∀ i < n, read (indexKey i) = if i ≤ maxIndex then vs[i]? else none) :
    ((List.range n).map indexKey).map (fun k => (k, (read k).getD .undefined)) = placed vs := by
  refine List.ext_getElem (by simp [placed, length]) fun i inside inside' => ?_
  have less : i < n := by simpa using inside
  have less' : i < vs.length := length ▸ less
  simp only [List.getElem_map, List.getElem_range, at_ i less, placed, List.getElem_mapIdx,
    List.getElem?_eq_getElem less']
  split <;> rfl

/-- The own properties of an array are its elements under their places. -/
theorem ownEntries_array (h : Heap) (r : ArrayRef) :
    h.ownEntries (.array r) = placed (h.elements r).toList := by
  refine placed_eq (by simp) (h.get? (.array r)) fun i less => ?_
  simp only [get?, if_neg (indexKey_ne_length i), arrayIndex?_indexKey]
  split <;> simp

/-- The own properties of a text are its characters under their places. -/
theorem ownEntries_string (h : Heap) (text : String) :
    h.ownEntries (.string text) = placed (characters text) := by
  refine placed_eq (by rw [characters, List.length_map, String.length_toList])
    (h.get? (.string text)) fun i less => ?_
  simp only [get?, if_neg (indexKey_ne_length i), arrayIndex?_indexKey]
  split <;> simp [characters]

theorem map_keys_eq {t : Table Value} {read : String → Option Value}
    (own : ∀ key v, t.get? key = some v → read key = some v) :
    t.keys.map (fun k => (k, (read k).getD .undefined)) = t.entries := by
  rw [Table.keys, List.map_map]
  refine (List.map_congr_left fun e member => ?_).trans (List.map_id _)
  rw [Function.comp_apply, own e.1 e.2 (Table.get?_eq_some_of_mem member)]
  rfl

/-- The own properties of an object, whatever it inherits. -/
theorem ownEntries_object (h : Heap) (r : ObjectRef) :
    h.ownEntries (.object r) = (h.object r).props.entries :=
  map_keys_eq fun _ _ own => lookup?_own own

theorem ownEntries_function {h : Heap} {r : FunctionRef} {f : FunctionObject}
    (found : h.function? r = some f) : h.ownEntries (.function r) = f.props.entries := by
  rw [ownEntries, ownKeys, found]
  refine map_keys_eq fun key v own => ?_
  simp [get?, found, FunctionObject.get?, own]

end Heap

end Scriptlet
