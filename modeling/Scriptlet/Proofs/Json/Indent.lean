import Mathlib.Data.List.TakeWhile
import Scriptlet.Json.Writer

/-!
The indentation of JSON texts.

A text is indented by writing it with two blanks per level and reading the levels off its lines
again. Every line of such a text starts with the blanks of its level and goes on with something
else, because no string has a line break in it and no value starts with a blank. Main statement:
what comes out is the text written with the indentation in the first place.
-/

namespace Scriptlet.Json

variable {s t s' t' line : List Char} {unit : String} {level : Nat}

/-! ### Lines -/

/-- A text that goes on with something else than a blank. -/
def Begins (s : List Char) : Prop :=
  ∃ c rest, s = c :: rest ∧ c ≠ ' '

theorem Begins.append (begins : Begins s) : Begins (s ++ s') := by
  obtain ⟨c, rest, rfl, ne⟩ := begins
  exact ⟨c, rest ++ s', rfl, ne⟩

/-- Two texts that are equal but for the indentation of their lines: two blanks per level in the
first one and a unit per level in the second one. -/
inductive Reindented (unit : String) : List Char → List Char → Prop where
  | nil : Reindented unit [] []
  | char {c : Char} {s t : List Char} :
      c ≠ '\n' → Reindented unit s t → Reindented unit (c :: s) (c :: t)
  | line {level : Nat} {s t : List Char} : Begins s → Reindented unit s t →
      Reindented unit ((newline "  " level).toList ++ s) ((newline unit level).toList ++ t)

namespace Reindented

/-- A text on one line has no indentation. -/
theorem refl (whole : '\n' ∉ s) : Reindented unit s s := by
  induction s with
  | nil => exact .nil
  | cons c s ih =>
    rw [List.mem_cons, not_or] at whole
    exact .char (Ne.symm whole.1) (ih whole.2)

theorem append (first : Reindented unit s t) (second : Reindented unit s' t') :
    Reindented unit (s ++ s') (t ++ t') := by
  induction first with
  | nil => exact second
  | char ne _ ih => exact .char ne ih
  | line begins _ ih =>
    rw [List.append_assoc, List.append_assoc]
    exact .line begins.append ih

end Reindented

theorem toList_repeat (unit start : String) (n : Nat) :
    (Nat.repeat (· ++ unit) n start).toList =
      start.toList ++ (List.replicate n unit.toList).flatten := by
  induction n with
  | zero => simp [Nat.repeat]
  | succ n ih =>
    rw [Nat.repeat, String.toList_append, ih, List.replicate_succ']
    simp

theorem toList_newline (unit : String) (level : Nat) :
    (newline unit level).toList = '\n' :: (List.replicate level unit.toList).flatten :=
  toList_repeat unit "\n" level

/-- The start of a line with two blanks per level. -/
theorem toList_newline_blanks (level : Nat) :
    (newline "  " level).toList = '\n' :: List.replicate (2 * level) ' ' := by
  rw [toList_newline]
  induction level with
  | zero => rfl
  | succ n ih =>
    rw [List.replicate_succ, List.flatten_cons, (List.cons.inj ih).2]
    rfl

theorem linesFrom_ne_nil : linesFrom line s ≠ [] := by
  induction s generalizing line with
  | nil => simp [linesFrom]
  | cons c s ih =>
    rw [linesFrom]
    split
    · simp
    · exact ih

/-- Characters without a line break go on the current line. -/
theorem linesFrom_append (whole : '\n' ∉ s) :
    linesFrom line (s ++ t) = linesFrom (s.reverse ++ line) t := by
  induction s generalizing line with
  | nil => rfl
  | cons c s ih =>
    rw [List.mem_cons, not_or] at whole
    rw [List.cons_append, linesFrom, if_neg (Ne.symm whole.1), ih whole.2]
    simp

/-- Blanks at the start of a line are its indentation. -/
theorem toList_reindent_blanks (unit : String) (level : Nat) :
    (reindent unit (List.replicate (2 * level) ' ')).toList =
      (List.replicate level unit.toList).flatten := by
  have none : (List.replicate (2 * level) ' ').dropWhile (· == ' ') = [] := by simp
  simp only [reindent, none, String.toList_append, toList_repeat]
  simp

/-- A character after the indentation stays where it is. -/
theorem toList_reindent_concat {c : Char} (started : (∃ x ∈ line, x ≠ ' ') ∨ c ≠ ' ') :
    (reindent unit (line ++ [c])).toList = (reindent unit line).toList ++ [c] := by
  have body : (line ++ [c]).dropWhile (· == ' ') = line.dropWhile (· == ' ') ++ [c] := by
    rw [List.dropWhile_append]
    split
    next blank =>
      have all := List.dropWhile_eq_nil_iff.1 (List.isEmpty_iff.1 blank)
      have ne : c ≠ ' ' :=
        started.resolve_left fun ⟨x, member, other⟩ => other (by simpa using all x member)
      simp [List.isEmpty_iff.1 blank, ne]
    next => rfl
  have width : (line ++ [c]).length - (line.dropWhile (· == ' ') ++ [c]).length =
      line.length - (line.dropWhile (· == ' ')).length := by
    simp only [List.length_append, List.length_singleton]
    omega
  simp only [reindent, body, width]
  simp

/-- The text with every line indented anew. -/
def reindentFrom (unit : String) (line s : List Char) : List Char :=
  (String.intercalate "\n" ((linesFrom line s).map (reindent unit))).toList

theorem reindentFrom_newline : reindentFrom unit line ('\n' :: s) =
    (reindent unit line.reverse).toList ++ '\n' :: reindentFrom unit [] s := by
  unfold reindentFrom
  rw [linesFrom, if_pos rfl, List.map_cons]
  have given : linesFrom [] s ≠ [] := linesFrom_ne_nil
  obtain ⟨first, rest, more⟩ := List.exists_cons_of_ne_nil given
  rw [more, List.map_cons, String.intercalate_cons_cons]
  simp

/-- Lines are indented anew one by one. A line that was begun goes on with whatever follows, and one
that holds only blanks so far goes on with something else. -/
theorem reindentFrom_of_reindented (same : Reindented unit s t)
    (started : (∃ x ∈ line, x ≠ ' ') ∨ s.head? ≠ some ' ') :
    reindentFrom unit line s = (reindent unit line.reverse).toList ++ t := by
  induction same generalizing line with
  | nil => simp [reindentFrom, linesFrom]
  | @char c s t ne _ ih =>
    have started : (∃ x ∈ line.reverse, x ≠ ' ') ∨ c ≠ ' ' := by simpa using started
    have next : (∃ x ∈ c :: line, x ≠ ' ') ∨ s.head? ≠ some ' ' := by
      left
      rcases started with ⟨x, member, other⟩ | other
      · exact ⟨x, List.mem_cons_of_mem _ (List.mem_reverse.1 member), other⟩
      · exact ⟨c, List.mem_cons_self, other⟩
    calc reindentFrom unit line (c :: s) = reindentFrom unit (c :: line) s := by
          rw [reindentFrom, linesFrom, if_neg ne, reindentFrom]
      _ = (reindent unit (line.reverse ++ [c])).toList ++ t := by rw [ih next, List.reverse_cons]
      _ = (reindent unit line.reverse).toList ++ c :: t := by
          rw [toList_reindent_concat started, List.append_assoc, List.singleton_append]
  | @line level s t begins _ ih =>
    obtain ⟨c, rest, rfl, ne⟩ := begins
    have blanks : '\n' ∉ List.replicate (2 * level) ' ' := by simp
    have inner : reindentFrom unit [] (List.replicate (2 * level) ' ' ++ (c :: rest)) =
        (List.replicate level unit.toList).flatten ++ t := by
      rw [reindentFrom, linesFrom_append blanks, ← reindentFrom, ih (.inr (by simpa using ne))]
      simp [toList_reindent_blanks]
    rw [toList_newline_blanks, List.cons_append, reindentFrom_newline, inner, toList_newline,
      List.cons_append]

/-- A text that does not start with a blank comes out with its lines indented by the unit. -/
theorem reindentFrom_nil (same : Reindented unit s t) (begins : Begins s) :
    reindentFrom unit [] s = t := by
  obtain ⟨c, rest, rfl, ne⟩ := begins
  rw [reindentFrom_of_reindented same (.inr (by simpa using ne))]
  simp [reindent, Nat.repeat]

/-! ### Values on one line -/

/-- A text without blanks and line breaks. -/
def Solid (s : List Char) : Prop :=
  ∀ c ∈ s, c ≠ ' ' ∧ c ≠ '\n'

instance : Decidable (Solid s) :=
  List.decidableBAll (fun c => c ≠ ' ' ∧ c ≠ '\n') s

theorem Solid.append (first : Solid s) (second : Solid t) : Solid (s ++ t) := by
  intro c member
  exact (List.mem_append.1 member).elim (first c) (second c)

theorem Solid.of_subset (solid : Solid t) (inside : s ⊆ t) : Solid s :=
  fun c member => solid c (inside member)

theorem solid_digits (n : Nat) : Solid (Nat.toDigits 10 n) := by
  intro c member
  have digit := Nat.isDigit_of_mem_toDigits (by decide) (by decide) member
  constructor <;> rintro rfl <;> cases digit

theorem solid_zeros (n : Nat) : Solid (List.replicate n '0') := by
  intro c member
  rw [List.eq_of_mem_replicate member]
  decide

/-- A text on one line that starts with no blank. -/
structure Inline (s : List Char) : Prop where
  begins : Begins s
  whole : '\n' ∉ s

theorem Solid.inline (solid : Solid s) (given : s ≠ []) : Inline s := by
  refine ⟨?_, fun member => (solid _ member).2 rfl⟩
  obtain ⟨c, rest, rfl⟩ := List.exists_cons_of_ne_nil given
  exact ⟨c, rest, rfl, (solid c List.mem_cons_self).1⟩

theorem inline_int (n : Int) : Inline (toString n).toList := by
  have digits (n : Nat) : n.repr.toList = Nat.toDigits 10 n := by simp [Nat.repr]
  rw [Int.toString_eq_repr, Int.repr_eq_if]
  split
  · rw [digits]
    exact (solid_digits _).inline Nat.toDigits_ne_nil
  · rw [String.toList_append, digits]
    exact Solid.inline (.append (by decide) (solid_digits _)) (by simp)

theorem withPoint_solid {pointed : Bool} {point : Int} (solid : Solid s) :
    Solid (Number.Layout.withPoint pointed s point) := by
  unfold Number.Layout.withPoint
  simp only
  split
  · refine .append (.append solid (solid_zeros _)) ?_
    cases pointed <;> decide
  split
  · exact .append (solid.of_subset (List.take_subset ..))
      (.append (s := ['.']) (by decide) (solid.of_subset (List.drop_subset ..)))
  · exact .append (s := ['0', '.']) (by decide) (.append (solid_zeros _) solid)

theorem withExponent_solid {order : Int} (solid : Solid s) :
    Solid (Number.Layout.withExponent s order) := by
  have rest : Solid (if (s.drop 1).isEmpty then [] else '.' :: s.drop 1) := by
    split
    · exact fun _ member => absurd member List.not_mem_nil
    · exact .append (s := ['.']) (by decide) (solid.of_subset (List.drop_subset ..))
  have sign : Solid ['e', if 0 ≤ order then '+' else '-'] := by
    split <;> decide
  exact .append (.append (solid.of_subset (List.take_subset ..)) rest)
    (.append sign (solid_digits _))

theorem decimal_solid {d : Number.Decimal} : Solid (Number.jsonLayout.decimal d) ∧
    Number.jsonLayout.decimal d ≠ [] := by
  unfold Number.Layout.decimal
  simp only
  split
  · refine ⟨withPoint_solid (solid_digits _), ?_⟩
    unfold Number.Layout.withPoint
    simp only
    split
    · simp [Number.jsonLayout]
    · split <;> simp
  · exact ⟨withExponent_solid (solid_digits _), by simp [Number.Layout.withExponent]⟩

/-- A number is written without blanks. -/
theorem inline_render (x : Float) : Inline (Number.jsonLayout.render x).toList := by
  unfold Number.Layout.render
  split
  · exact Solid.inline (by decide) (by decide)
  · split <;> exact Solid.inline (by decide) (by decide)
  rename_i d _
  split
  · split <;> exact Solid.inline (by decide) (by decide)
  have body := decimal_solid (d := Number.shortest .even d.mantissa d.exponent)
  simp only [String.toList_ofList]
  split
  · exact Solid.inline (.append (s := ['-']) (by decide) body.1) (by simp)
  · exact Solid.inline body.1 body.2

theorem hexDigit_ne_newline : ∀ n < 16, hexDigit n ≠ '\n' := by
  decide

theorem newline_not_mem_escape (c : Char) : '\n' ∉ escape c := by
  unfold escape
  split
  case h_8 lineBreak _ _ =>
    split
    next =>
      have digits : c.toNat / 16 < 16 ∧ c.toNat % 16 < 16 := by omega
      simp [(hexDigit_ne_newline _ digits.1).symm, (hexDigit_ne_newline _ digits.2).symm]
    next => exact fun member => lineBreak (List.mem_singleton.1 member).symm
  all_goals decide

/-- A string has its line breaks escaped. -/
theorem inline_quote (text : String) : Inline (quote text).toList := by
  unfold quote
  rw [String.toList_ofList]
  refine ⟨⟨'"', _, rfl, by decide⟩, ?_⟩
  simp [newline_not_mem_escape]

/-! ### Main statement -/

/-- A text that differs only in the indentation of its lines, and goes on with no blank. -/
structure Indented (unit : String) (s t : String) : Prop where
  begins : Begins s.toList
  same : Reindented unit s.toList t.toList

theorem Inline.indented {text : String} (inline : Inline text.toList) : Indented unit text text :=
  ⟨inline.begins, .refl inline.whole⟩

/-- Brackets around a text that has its lines one level further in. -/
theorem indented_enclosed {first last between between' : String} (opens : Inline first.toList)
    (closes : Inline last.toList) (inner : Reindented unit between.toList between'.toList) :
    Indented unit (first ++ between ++ newline "  " level ++ last)
      (first ++ between' ++ newline unit level ++ last) := by
  constructor
  · simp only [String.toList_append, List.append_assoc]
    exact opens.begins.append
  · simp only [String.toList_append, List.append_assoc]
    exact .append (.refl opens.whole) (.append inner (.line closes.begins (.refl closes.whole)))

/-- An item of an array on a line of its own. -/
theorem item_reindented {text text' : String} (value : Indented unit text text') :
    Reindented unit (newline "  " level ++ text).toList (newline unit level ++ text').toList := by
  simp only [String.toList_append]
  exact .line value.begins value.same

/-- A member of an object on a line of its own. -/
theorem member_reindented {key text text' : String} (value : Indented unit text text') :
    Reindented unit (newline "  " level ++ quote key ++ ": " ++ text).toList
      (newline unit level ++ quote key ++ ": " ++ text').toList := by
  have key := inline_quote key
  simp only [String.toList_append, List.append_assoc]
  exact .line key.begins.append (.append (.refl key.whole) (.append (.refl (by decide)) value.same))

theorem reindented_separated {first first' rest rest' : String}
    (here : Reindented unit first.toList first'.toList)
    (more : Reindented unit rest.toList rest'.toList) :
    Reindented unit (first ++ "," ++ rest).toList (first' ++ "," ++ rest').toList := by
  simp only [String.toList_append]
  exact .append (.append here (.refl (by decide))) more

mutual

theorem pretty_indented (unit : String) (level : Nat) (j : Json) :
    Indented unit (j.pretty "  " level) (j.pretty unit level) := by
  have word (text : String) (solid : Solid text.toList) (given : text.toList ≠ []) :
      Indented unit text text := (solid.inline given).indented
  match j with
  | .null => exact word "null" (by decide) (by decide)
  | .bool false => exact word "false" (by decide) (by decide)
  | .bool true => exact word "true" (by decide) (by decide)
  | .int n => exact (inline_int n).indented
  | .float x => exact (inline_render x).indented
  | .str s => exact (inline_quote s).indented
  | .arr [] => exact word "[]" (by decide) (by decide)
  | .obj [] => exact word "\x7b\x7d" (by decide) (by decide)
  | .arr (j :: rest) =>
    exact indented_enclosed (Solid.inline (by decide) (by decide))
      (Solid.inline (by decide) (by decide))
      (prettyItems_reindented unit (level + 1) (j :: rest))
  | .obj (e :: rest) =>
    exact indented_enclosed (Solid.inline (by decide) (by decide))
      (Solid.inline (by decide) (by decide))
      (prettyMembers_reindented unit (level + 1) (e :: rest))

theorem prettyItems_reindented (unit : String) (level : Nat) (items : List Json) :
    Reindented unit (prettyItems "  " level items).toList
      (prettyItems unit level items).toList := by
  match items with
  | [] => exact .nil
  | [j] => exact item_reindented (pretty_indented unit level j)
  | j :: k :: rest =>
    exact reindented_separated (item_reindented (pretty_indented unit level j))
      (prettyItems_reindented unit level (k :: rest))

theorem prettyMembers_reindented (unit : String) (level : Nat) (members : List (String × Json)) :
    Reindented unit (prettyMembers "  " level members).toList
      (prettyMembers unit level members).toList := by
  match members with
  | [] => exact .nil
  | [(k, j)] => exact member_reindented (pretty_indented unit level j)
  | (k, j) :: e :: rest =>
    exact reindented_separated (member_reindented (pretty_indented unit level j))
      (prettyMembers_reindented unit level (e :: rest))

end

/-- A text that is indented anew is the text written with that indentation: every item and member
stands on a line of its own, with the unit once per level before it. -/
theorem render_eq_pretty (indent : String) (j : Json) (given : indent ≠ "") :
    j.render indent = j.pretty indent 0 := by
  have indented := pretty_indented indent 0 j
  have eq := reindentFrom_nil indented.same indented.begins
  have nonempty : indent.isEmpty = false := by simpa using given
  rw [render, nonempty]
  exact String.toList_inj.1 eq

/-- A key with a line break and blanks in it, and containers without items. -/
theorem render_eq_pretty_nested :
    "--" ≠ "" ∧
    render "--" (.obj [("a\n  b", .arr [.float 0.5, .obj [], .arr [.null]]), ("", .str " ")]) =
      "\x7b\n--\"a\\n  b\": [\n----0.5,\n----\x7b\x7d,\n----[\n------null\n----]\n--],\n--\"\": \" \"\n\x7d" :=
  ⟨by decide, (render_eq_pretty "--" _ (by decide)).trans (by decide +kernel)⟩

end Scriptlet.Json
