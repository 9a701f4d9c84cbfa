import Mathlib.Data.Nat.SuccPred
import Scriptlet.Proofs.Text.Search

/-!
Where a text stands in another one.

The search from a place on answers the least place from there on at which the needle stands, and it
stands somewhere exactly if its bytes stand in those of the text. Main statements:
`find?_eq_some_iff`, `trySlices?_eq` and `encode_infix_iff`.
-/

namespace Scriptlet.Text

variable {needle text : List Char} {i j start : Nat}

/-! ### The first place -/

/-- A first place in what is left of a text from a start on. -/
theorem firstAt_drop_iff : FirstAt needle (text.drop start) j ↔
    IsLeast {i | start ≤ i ∧ needle <+: text.drop i} (start + j) := by
  constructor
  · rintro ⟨here, first⟩
    rw [List.drop_drop] at here
    refine ⟨⟨Nat.le_add_right .., here⟩, fun i there => ?_⟩
    obtain ⟨le, there⟩ := there
    by_contra before
    refine first (i - start) (by omega) ?_
    rwa [List.drop_drop, Nat.add_sub_cancel' le]
  · rintro ⟨⟨_, here⟩, least⟩
    refine ⟨by rwa [List.drop_drop], fun i less there => ?_⟩
    rw [List.drop_drop] at there
    have := least ⟨Nat.le_add_right start i, there⟩
    omega

theorem absent_drop_iff :
    Absent needle (text.drop start) ↔ ∀ i ≥ start, ¬needle <+: text.drop i := by
  rw [absent_iff]
  constructor
  · intro absent i le
    have := absent (i - start)
    rwa [List.drop_drop, Nat.add_sub_cancel' le] at this
  · intro absent i
    rw [List.drop_drop]
    exact absent _ (Nat.le_add_right ..)

theorem find?_of_ne (ne : needle ≠ []) :
    find? text needle start = scan needle (text.drop start) start :=
  if_neg (by simpa using ne)

theorem find?_nil (text : List Char) (start : Nat) :
    find? text [] start = some (min start text.length) :=
  rfl

theorem find?_eq_some (ne : needle ≠ [])
    (least : IsLeast {i | start ≤ i ∧ needle <+: text.drop i} i) :
    find? text needle start = some i := by
  obtain ⟨j, rfl⟩ := Nat.exists_eq_add_of_le least.1.1
  rw [find?_of_ne ne, scan_eq_some (firstAt_drop_iff.2 least) ne]

theorem find?_eq_none (ne : needle ≠ []) (absent : ∀ i ≥ start, ¬needle <+: text.drop i) :
    find? text needle start = none := by
  rw [find?_of_ne ne, scan_eq_none (absent_drop_iff.2 absent)]

/-- A set of places has a least one, or it is empty. -/
theorem exists_least_or_absent (needle text : List Char) (start : Nat) :
    (∃ i, IsLeast {i | start ≤ i ∧ needle <+: text.drop i} i) ∨
    ∀ i ≥ start, ¬needle <+: text.drop i := by
  by_cases somewhere : ∃ i, start ≤ i ∧ needle <+: text.drop i
  · exact .inl (BddBelow.exists_isLeast_of_nonempty ⟨0, fun _ _ => Nat.zero_le _⟩ somewhere)
  · exact .inr fun i le here => somewhere ⟨i, le, here⟩

theorem find?_eq_some_iff (ne : needle ≠ []) :
    find? text needle start = some i ↔ IsLeast {i | start ≤ i ∧ needle <+: text.drop i} i := by
  refine ⟨fun found => ?_, find?_eq_some ne⟩
  rcases exists_least_or_absent needle text start with ⟨j, least⟩ | absent
  · rw [find?_eq_some ne least] at found
    cases found
    exact least
  · rw [find?_eq_none ne absent] at found
    cases found

theorem find?_eq_none_iff (ne : needle ≠ []) :
    find? text needle start = none ↔ ∀ i ≥ start, ¬needle <+: text.drop i := by
  refine ⟨fun found => ?_, find?_eq_none ne⟩
  rcases exists_least_or_absent needle text start with ⟨j, least⟩ | absent
  · rw [find?_eq_some ne least] at found
    cases found
  · exact absent

theorem length_le_of_here (ne : needle ≠ []) (here : needle <+: text.drop i) :
    i + needle.length ≤ text.length := by
  have le := here.length_le
  have pos := List.length_pos_iff.2 ne
  rw [List.length_drop] at le
  omega

/-- The search does not leave the text. -/
theorem find?_le (found : find? text needle start = some i) : i ≤ text.length := by
  by_cases empty : needle = []
  · subst empty
    cases found
    exact Nat.min_le_right ..
  · have least := (find?_eq_some_iff empty).1 found
    exact Nat.le_of_add_right_le (length_le_of_here empty least.1.2)

/-! ### Slices -/

/-- The characters from a place on; a place past the end is out of range. -/
def slice? (text : List Char) (i : Nat) : Option (List Char) :=
  if i ≤ text.length then some (text.drop i) else none

/-- Tries the slices from `start` up to the last one that has room for the needle. A slice out of
range ends the search with `none`. -/
def trySlices? (text needle : List Char) (start : Nat) : Option (Option Nat) :=
  if needle.isEmpty then some (some (min start text.length))
  else if text.length < needle.length then some none
  else (List.range' start (text.length - needle.length + 1 - start)).findM? fun i =>
    (slice? text i).map needle.isPrefixOf

theorem findM?_of_forall {α : Type} {p : α → Bool} {m : α → Option Bool} {l : List α}
    (all : ∀ a ∈ l, m a = some (p a)) : l.findM? m = some (l.find? p) := by
  induction l with
  | nil => rfl
  | cons a l ih =>
    have rest := ih fun b member => all b (List.mem_cons_of_mem _ member)
    rw [List.findM?, all a List.mem_cons_self, List.find?_cons]
    cases p a with
    | true => rfl
    | false => exact rest

/-- No slice that is tried is out of range, and the first place is among those that are. -/
theorem trySlices?_eq (text needle : List Char) (start : Nat) :
    trySlices? text needle start = some (find? text needle start) := by
  unfold trySlices?
  by_cases empty : needle = []
  · subst empty
    rfl
  rw [if_neg (by simpa using empty)]
  split
  next short =>
    rw [find?_eq_none empty fun i _ here => ?_]
    have := length_le_of_here empty here
    omega
  next room =>
    rw [findM?_of_forall (p := fun i => needle.isPrefixOf (text.drop i)) fun i tried => ?_]
    · refine congrArg some ?_
      rcases exists_least_or_absent needle text start with ⟨i, least⟩ | absent
      · rw [find?_eq_some empty least, List.find?_range'_eq_some]
        have inside := length_le_of_here empty least.1.2
        refine ⟨List.isPrefixOf_iff_prefix.2 least.1.2, ?_, fun j le less => ?_⟩
        · have := least.1.1
          exact List.mem_range'_1.2 (by omega)
        · rw [Bool.not_eq_true', Bool.eq_false_iff, Ne, List.isPrefixOf_iff_prefix]
          exact fun there => Nat.not_le_of_lt less (least.2 ⟨le, there⟩)
      · rw [find?_eq_none empty absent, List.find?_range'_eq_none]
        intro i le _
        rw [Bool.not_eq_true', Bool.eq_false_iff, Ne, List.isPrefixOf_iff_prefix]
        exact absent i le
    · have := List.mem_range'_1.1 tried
      rw [slice?, if_pos (by omega)]
      rfl

/-! ### Anywhere, and at one place -/

theorem occurs_iff_isInfix : occurs needle text = true ↔ needle <:+: text := by
  induction text with
  | nil => simp [occurs]
  | cons c rest ih =>
    rw [occurs, Bool.or_eq_true, List.isPrefixOf_iff_prefix, ih, List.infix_cons_iff]

theorem occurs_iff_find? (needle text : List Char) :
    occurs needle text = true ↔ find? text needle 0 ≠ none := by
  rw [occurs_iff_isInfix]
  by_cases empty : needle = []
  · subst empty
    simp [find?_nil]
  · have absent : Absent needle (text.drop 0) ↔ ∀ i ≥ 0, ¬needle <+: text.drop i := absent_drop_iff
    rw [Ne, find?_eq_none_iff empty, ← absent, List.drop_zero, Absent, not_not]

/-- A text stands at a place exactly if the search from there ends there. -/
theorem isPrefixOf_drop_iff (inside : i ≤ text.length) :
    needle.isPrefixOf (text.drop i) = true ↔ find? text needle i = some i := by
  by_cases empty : needle = []
  · subst empty
    simp [find?_nil, inside]
  · rw [find?_eq_some_iff empty, List.isPrefixOf_iff_prefix]
    exact ⟨fun here => ⟨⟨Nat.le_refl i, here⟩, fun _ there => there.1⟩, fun least => least.1.2⟩

/-! ### Bytes -/

/-- The bytes of characters. -/
def encode (cs : List Char) : List UInt8 :=
  cs.flatMap String.utf8EncodeChar

theorem toUTF8_eq (s : String) : s.toUTF8.data.toList = encode s.toList := by
  change s.toByteArray.data.toList = _
  rw [← String.utf8Encode_toList, List.utf8Encode, List.data_toByteArray]
  rfl

theorem encode_cons (c : Char) (cs : List Char) :
    encode (c :: cs) = String.utf8EncodeChar c ++ encode cs :=
  List.flatMap_cons ..

theorem exists_encode_cons (c : Char) (cs : List Char) :
    ∃ b bs, encode (c :: cs) = b :: bs ∧ b.IsUTF8FirstByte := by
  have first := UInt8.isUTF8FirstByte_getElem_zero_utf8EncodeChar (c := c)
  rw [encode_cons]
  cases bytes : String.utf8EncodeChar c with
  | nil => exact absurd bytes String.utf8EncodeChar_ne_nil
  | cons b bs =>
    simp only [bytes, List.getElem_cons_zero] at first
    exact ⟨b, bs ++ encode cs, rfl, first⟩

/-- The bytes of a character tell where they end. -/
theorem char_eq_of_bytes {c d : Char} {bs bs' : List UInt8}
    (same : String.utf8EncodeChar c ++ bs = String.utf8EncodeChar d ++ bs') : c = d ∧ bs = bs' := by
  have decoded := congrArg (fun bytes => (List.toByteArray bytes).utf8DecodeChar? 0) same
  simp only [List.toByteArray_append, ByteArray.utf8DecodeChar?_utf8EncodeChar_append,
    Option.some.injEq]
    at decoded
  subst decoded
  exact ⟨rfl, List.append_cancel_left same⟩

theorem encode_prefix_iff : encode needle <+: encode text ↔ needle <+: text := by
  induction needle generalizing text with
  | nil => simp [encode]
  | cons c needle ih =>
    cases text with
    | nil =>
      obtain ⟨b, bs, bytes, -⟩ := exists_encode_cons c needle
      simp [encode]
    | cons d text =>
      rw [encode_cons, encode_cons, List.cons_prefix_cons, ← ih]
      constructor
      · rintro ⟨rest, same⟩
        rw [List.append_assoc] at same
        obtain ⟨rfl, behind⟩ := char_eq_of_bytes same
        exact ⟨rfl, rest, behind⟩
      · rintro ⟨rfl, behind⟩
        exact (List.prefix_append_right_inj _).2 behind

/-- Inside the bytes of a character no other character starts. -/
theorem suffix_of_char {c : Char} {tail : List UInt8} {b : UInt8}
    (suffix : b :: tail <:+ String.utf8EncodeChar c) (first : b.IsUTF8FirstByte) :
    b :: tail = String.utf8EncodeChar c := by
  obtain ⟨before, same⟩ := suffix
  have length : before.length < (String.utf8EncodeChar c).length := by simp [← same]
  have here : (String.utf8EncodeChar c)[before.length] = b := by simp [← same]
  have zero := UInt8.isUTF8FirstByte_getElem_utf8EncodeChar.1 (here ▸ first)
  rw [List.length_eq_zero_iff] at zero
  subst zero
  exact same

/-- A text has another one in it exactly if its bytes do. -/
theorem encode_infix_iff : encode needle <:+: encode text ↔ needle <:+: text := by
  cases needle with
  | nil => simp [encode]
  | cons d needle =>
    obtain ⟨b, bs, bytes, first⟩ := exists_encode_cons d needle
    induction text with
    | nil => simp [encode]
    | cons c text ih =>
      rw [List.infix_cons_iff, ← ih, ← encode_prefix_iff]
      constructor
      · rintro ⟨before, behind, same⟩
        rw [List.append_assoc, encode_cons c, List.append_eq_append_iff] at same
        rcases same with ⟨tail, char, same⟩ | ⟨middle, -, same⟩
        · cases tail with
          | nil => exact .inr ⟨[], behind, same⟩
          | cons b' tail =>
            -- the bytes start within those of the character, so they start with it
            obtain rfl : b = b' := by
              rw [bytes] at same
              exact List.head_eq_of_cons_eq same
            have whole := suffix_of_char ⟨before, char.symm⟩ first
            rw [whole] at same
            exact .inl ⟨behind, same.trans (encode_cons c text).symm⟩
        · exact .inr ⟨middle, behind, by rw [List.append_assoc, same]⟩
      · rintro (here | later)
        · exact here.isInfix
        · rw [encode_cons c]
          exact later.trans (List.suffix_append ..).isInfix

end Scriptlet.Text
