import Scriptlet.Text.Search

/-!
Where a text stands in another one, and the parts between.

A search answers the first place where the needle stands. Splitting cuts a text at the first place
of the separator and goes on behind it, so the parts joined with the separator give the text back
and none of them has the separator in it.
-/

namespace Scriptlet.Text

variable {needle sep text part rest : List Char} {parts : List (List Char)} {i j : Nat}

/-! ### Searching -/

/-- A place where the needle stands, and none before it. -/
structure FirstAt (needle text : List Char) (i : Nat) : Prop where
  here : needle <+: text.drop i
  first : ∀ j < i, ¬needle <+: text.drop j

/-- The needle stands nowhere. -/
def Absent (needle text : List Char) : Prop :=
  ¬needle <:+: text

theorem absent_iff : Absent needle text ↔ ∀ i, ¬needle <+: text.drop i := by
  rw [Absent, List.infix_iff_prefix_suffix]
  constructor
  · exact fun absent i here => absent ⟨_, here, List.drop_suffix i text⟩
  · rintro absent ⟨rest, here, suffix⟩
    rw [List.suffix_iff_eq_drop.1 suffix] at here
    exact absent _ here

theorem FirstAt.step {c : Char} (first : FirstAt needle (c :: text) (i + 1)) :
    FirstAt needle text i where
  here := first.here
  first j less := first.first (j + 1) (Nat.succ_lt_succ less)

theorem scan_eq_some (first : FirstAt needle text j) (ne : needle ≠ []) :
    scan needle text i = some (i + j) := by
  induction text generalizing i j with
  | nil =>
    have empty := List.prefix_nil.1 (List.drop_nil ▸ first.here)
    exact absurd empty ne
  | cons c rest ih =>
    cases j with
    | zero =>
      have here : needle.isPrefixOf (c :: rest) = true := List.isPrefixOf_iff_prefix.2 first.here
      simp only [scan, here, if_true, Nat.add_zero]
    | succ j =>
      have not : ¬needle.isPrefixOf (c :: rest) = true := fun here =>
        first.first 0 (Nat.succ_pos j) (List.isPrefixOf_iff_prefix.1 here)
      rw [scan, if_neg not, ih first.step]
      exact congrArg some (by omega)

theorem scan_eq_none (absent : Absent needle text) : scan needle text i = none := by
  rw [absent_iff] at absent
  induction text generalizing i with
  | nil =>
    have ne : needle.isEmpty = false := by
      cases needle with
      | nil => exact absurd (List.nil_prefix) (absent 0)
      | cons => rfl
    simp only [scan, ne]
    rfl
  | cons c rest ih =>
    have not : ¬needle.isPrefixOf (c :: rest) = true := fun here =>
      absent 0 (List.isPrefixOf_iff_prefix.1 here)
    rw [scan, if_neg not]
    exact ih fun i => absent (i + 1)

/-! ### Splitting -/

/-- The parts of a text between the places of a separator, which is looked for from the left and
behind the place before. -/
inductive Splits (sep : List Char) : List Char → List (List Char) → Prop where
  | last {text : List Char} : Absent sep text → Splits sep text [text]
  | cut {part rest : List Char} {parts : List (List Char)} :
      FirstAt sep (part ++ sep ++ rest) part.length →
      Splits sep rest parts → Splits sep (part ++ sep ++ rest) (part :: parts)

/-- Splitting goes through a text with the part so far behind it, in which the separator does not
start. -/
theorem splits_splitGo (ne : sep ≠ []) (parts : List (List Char)) (part text : List Char)
    (skip : Nat)
    (enough : skip ≤ text.length) (fresh : skip = 0 ∨ part = [])
    (clear : ∀ i < part.length, ¬sep <+: (part.reverse ++ text).drop i) :
    ∃ found, splitGo sep parts skip part text = parts.reverse ++ found ∧
      Splits sep (part.reverse ++ text.drop skip) found := by
  induction text generalizing parts part skip with
  | nil =>
    refine ⟨[part.reverse], by simp [splitGo], ?_⟩
    rw [List.drop_nil, List.append_nil]
    refine .last (absent_iff.2 fun i here => ?_)
    by_cases inside : i < part.length
    · exact clear i inside (by simpa using here)
    · rw [List.drop_eq_nil_of_le (by simpa using inside)] at here
      exact ne (List.prefix_nil.1 here)
  | cons c rest ih =>
    cases skip with
    | succ skip =>
      obtain rfl : part = [] := fresh.resolve_left (Nat.succ_ne_zero skip)
      exact ih parts [] skip (Nat.le_of_succ_le_succ enough) (.inr rfl) nofun
    | zero =>
      rw [splitGo]
      split
      next here =>
        obtain ⟨behind, eq⟩ := List.isPrefixOf_iff_prefix.1 here
        have pos := List.length_pos_iff.2 ne
        have length := congrArg List.length eq
        simp only [List.length_append, List.length_cons] at length
        have onward : rest.drop (sep.length - 1) = behind := by
          have same := congrArg (List.drop sep.length) eq
          rw [List.drop_left] at same
          rw [same, ← Nat.sub_add_cancel pos, List.drop_succ_cons, Nat.add_sub_cancel]
        obtain ⟨found, run, splits⟩ :=
          ih (part.reverse :: parts) [] (sep.length - 1) (by omega) (.inr rfl) nofun
        refine ⟨part.reverse :: found, by simp [run], ?_⟩
        rw [onward] at splits
        rw [List.drop_zero, ← eq, ← List.append_assoc]
        refine .cut ⟨?_, fun i less => ?_⟩ splits
        · simp
        · rw [List.append_assoc, eq]
          exact clear i (by simpa using less)
      next not =>
        have next := ih parts (c :: part) 0 (Nat.zero_le _) (.inl rfl) ?_
        · simpa using next
        · intro i less
          rw [List.reverse_cons, List.append_assoc, List.singleton_append]
          rcases Nat.lt_succ_iff_lt_or_eq.1 less with before | rfl
          · exact clear i before
          · intro here
            refine not (List.isPrefixOf_iff_prefix.2 ?_)
            simpa using here

theorem splits_splitAt (ne : sep ≠ []) (text : List Char) : Splits sep text (splitAt text sep) := by
  obtain ⟨found, run, splits⟩ :=
    splits_splitGo ne [] [] text 0 (Nat.zero_le _) (.inl rfl) nofun
  have nonempty : ¬sep.isEmpty = true := by simpa using ne
  rw [splitAt, if_neg nonempty, run]
  exact splits

theorem Splits.intercalate (splits : Splits sep text parts) : sep.intercalate parts = text := by
  induction splits with
  | last => exact List.intercalate_singleton
  | @cut part rest parts _ more ih =>
    cases more with
    | last => simp [List.intercalate_cons_cons]
    | cut => rw [List.intercalate_cons_cons, ih]

/-- No part has the separator in it. -/
theorem Splits.absent (splits : Splits sep text parts) (ne : sep ≠ []) :
    ∀ p ∈ parts, Absent sep p := by
  induction splits with
  | last absent =>
    intro p member
    rw [List.mem_singleton.1 member]
    exact absent
  | @cut part rest parts first more ih =>
    rintro p (_ | ⟨_, later⟩)
    · rintro ⟨before, behind, eq⟩
      -- the separator would stand before its first place
      have pos := List.length_pos_iff.2 ne
      have less : before.length < part.length := by
        have length := congrArg List.length eq
        simp only [List.length_append] at length
        omega
      refine first.first before.length less ?_
      rw [← eq]
      simp [List.append_assoc]
    · exact ih p later

/-- The first part ends where the search for the separator ends, or is the whole text. -/
theorem Splits.find (splits : Splits sep text parts) (ne : sep ≠ []) :
    ∃ part rest, parts = part :: rest ∧
      ((find? text sep 0 = some part.length ∧ part <+: text) ∨
        (find? text sep 0 = none ∧ part = text)) := by
  have find : find? text sep 0 = scan sep text 0 := if_neg (by simpa using ne)
  rw [find]
  cases splits with
  | last absent => exact ⟨text, [], rfl, .inr ⟨scan_eq_none absent, rfl⟩⟩
  | @cut part rest parts first _ =>
    refine ⟨part, parts, rfl, .inl ⟨?_, ?_⟩⟩
    · rw [scan_eq_some first ne, Nat.zero_add]
    · rw [List.append_assoc]
      exact List.prefix_append part _

theorem intercalate_chars (text : List Char) :
    ([] : List Char).intercalate (text.map ([·])) = text := by
  induction text with
  | nil => rfl
  | cons c rest ih =>
    cases rest with
    | nil => rfl
    | cons d more => exact congrArg (c :: ·) ih

theorem intercalate_splitAt (text sep : List Char) : sep.intercalate (splitAt text sep) = text := by
  by_cases empty : sep = []
  · subst empty
    exact intercalate_chars text
  · exact (splits_splitAt empty text).intercalate

end Scriptlet.Text
