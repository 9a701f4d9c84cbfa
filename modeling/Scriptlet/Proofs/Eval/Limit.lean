import Scriptlet.Proofs.Eval.Whole
import Scriptlet.Proofs.Number.Product

/-!
How long arrays and texts can be.

Main statement: the arrays of a run stay within their limit unless a step breaks it that does not
look at the length of what it makes; the steps that do look refuse to go beyond the limits, and
leave everything as it is.
-/

namespace Scriptlet

open Eval

/-! ### Runs -/

/-- No array is longer than arrays can be, in runs that are not cut short. -/
def limits (cut : State → Prop) : Contract where
  sound s := s.heap.Within
  live _ _ := True
  kept _ _ := True
  bounded := True
  fine _ := True
  stops _ := False
  cut := cut
  raised _ := True

namespace Limits

variable {cut : State → Prop}

instance : (limits cut).Indifferent :=
  ⟨fun _ => rfl⟩

instance : (limits cut).Lawful where
  refl _ := trivial
  trans _ _ _ _ _ := trivial
  live_kept _ _ _ _ _ := trivial
  live_root _ _ := trivial
  known_kept _ _ _ := subset_rfl
  known_stored _ _ := inferInstance
  known_there _ _ _ := trivial
  child _ _ _ _ _ := trivial
  assigned _ absurd := absurd.elim
  heap _ _ _ _ within := ⟨within trivial, trivial⟩
  within _ _ sound := sound
  console _ _ sound := ⟨sound, trivial⟩
  edit _ _ sound _ := ⟨sound, trivial⟩
  closure _ _ _ _ sound _ _ := ⟨sound, trivial⟩
  opened _ _ sound _ := ⟨sound, trivial⟩
  closed _ _ _ _ _ _ sound _ closed :=
    ⟨show Heap.Within _ from State.heap_closed closed ▸ sound, trivial⟩
  called _ _ _ _ sound _ := ⟨trivial, sound, trivial⟩
  returned _ _ _ _ _ _ _ _ sound _ closed :=
    ⟨show Heap.Within _ from State.heap_closed closed ▸ sound, trivial⟩
  scripted _ _ := trivial
  located _ _ _ _ := trivial
  stuck _ _ _ := .inr fun _ => trivial

/-- Where all evaluations are modest, no evaluation starts or ends beyond the limit. -/
theorem guards_modest {P : (α : Type) → Task α → State → Prop}
    (holds : ∀ α task s, s.heap.Within → P α task s) (u v : State) :
    (limits (· = u)).Guards (.watchFrom (fun _ nested s o => nested.Modest s o) u)
      (.check P v) := by
  intro α task m m' s starts _ agree
  by_cases modest : task.Modest s (m s)
  · rw [Guard.watchFrom_of_holds u modest]
    rcases (agree (fun _ _ _ _ => id) fun _ => modest).cases with ⟨w, cut, done⟩ | ⟨same, ends⟩
    · rw [done]
      exact .cut w _ cut
    · have here : P α task s := holds α task s starts.sound
      simp only [Guard.check, if_pos here, same]
      cases done : m s with
      | ok a t =>
        rw [done] at ends
        simp only [if_pos (holds α task t ends.1)]
        exact .same _ ends
      | fault f t =>
        rw [done] at ends
        simp only [if_pos (holds α task t ends.1)]
        exact .same _ ends
      | exhausted t => exact .same _ trivial
  · rw [Guard.watchFrom_of_fails u modest]
    exact .cut u _ rfl

end Limits

/-- If all evaluations of a run are modest, the run stays within the limit. -/
theorem Task.within_of_modest {α : Type} {fuel : Nat} {task : Task α} {s t : State}
    (within : s.heap.Within) (modest : task.EachFrom (fun _ nested s o => nested.Modest s o) fuel s)
    (passes : task.Passes fuel s t) : t.heap.Within := by
  by_contra beyond
  refine passes fun v => ?_
  refine Contract.run_eq_of_guards (D := fun u => limits (· = u)) (fun _ _ cut => cut) (fun u => ?_)
    (fun u => ⟨within, fun _ _ => trivial, fun _ _ => trivial⟩) modest
  refine Limits.guards_modest (fun _ _ r here => ?_) u v
  rintro rfl
  exact beyond here

/-! ### Arrays -/

/-- Setting a property would make an array longer than arrays can be, or no length at all. -/
def Heap.Refuses (h : Heap) (r : ArrayRef) (key : String) (value : Value) : Prop :=
  if key = "length" then lengthOf? (h.number value) = none
  else ∃ i ∈ arrayIndex? key, (h.elements r).size ≤ i ∧ Value.maxArrayLength ≤ i

namespace Eval

theorem setElement_cases (r : ArrayRef) (i : Nat) (value : Value) (s : State) :
    (((s.heap.elements r).size ≤ i ∧ Value.maxArrayLength ≤ i) ∧
      setElement r i value s = .fault { cause := .range .arrayLength } s) ∨
    (¬((s.heap.elements r).size ≤ i ∧ Value.maxArrayLength ≤ i) ∧
      ∃ t, setElement r i value s = .ok () t ∧ (s.heap.Within → t.heap.Within)) := by
  simp only [setElement, Bind.bind, Eval.bind, Eval.gets]
  by_cases inside : i < (s.heap.elements r).size
  · refine .inr ⟨fun beyond => absurd beyond.1 (by omega), _, by rw [if_pos inside]; rfl, ?_⟩
    exact fun within => within.modifyArray fun xs sized => by simpa using sized
  · by_cases short : i < Value.maxArrayLength
    · refine .inr
        ⟨fun beyond => absurd beyond.2 (by omega), _, by rw [if_neg inside, if_pos short]; rfl, ?_⟩
      refine fun within => within.modifyArray fun xs _ => ?_
      simpa [Contract.size_resize] using Nat.succ_le_of_lt short
    · exact .inl ⟨by omega, by rw [if_neg inside, if_neg short]; rfl⟩

/-- Setting a property of an array is refused, with everything as it was, exactly if the array would
get too long. -/
theorem setProperty_array_cases (r : ArrayRef) (key : String) (value : Value) (s : State) :
    (s.heap.Refuses r key value ∧
      setProperty (.array r) key value s = .fault { cause := .range .arrayLength } s) ∨
    (¬s.heap.Refuses r key value ∧
      ∃ t, setProperty (.array r) key value s = .ok () t ∧ (s.heap.Within → t.heap.Within)) := by
  unfold setProperty Heap.Refuses
  by_cases length : key = "length"
  · simp only [if_pos length, Bind.bind, Eval.bind, Eval.gets]
    cases asked : lengthOf? (s.heap.number value) with
    | none => exact .inl ⟨rfl, rfl⟩
    | some n =>
      refine .inr ⟨Option.some_ne_none n, _, rfl, fun within => within.modifyArray fun xs _ => ?_⟩
      exact (Contract.size_resize n xs).trans_le (Contract.le_of_lengthOf? asked)
  · simp only [if_neg length]
    cases place : arrayIndex? key with
    | none => exact .inr ⟨by simp, s, rfl, id⟩
    | some i => simpa using setElement_cases r i value s

/-- Nothing looks at the length of an array that values are pushed to. -/
theorem push_unlimited (r : ArrayRef) (args : List Value) (s : State)
    (there : r.index < s.heap.arrays.size) :
    ∃ v t, Native.push r args s = .ok v t ∧
      (t.heap.elements r).size = (s.heap.elements r).size + args.length := by
  refine ⟨_, _, rfl, ?_⟩
  have appended (xs : Array Value) : (xs ++ args).size = xs.size + args.length := by
    rw [← Array.length_toList, Array.toList_appendList, List.length_append, Array.length_toList]
  simp [Heap.elements, Heap.modifyArray, there, Array.getElem_modify, appended]

/-! ### Texts -/

/-- What a computation answers, if it does. -/
structure Answers {α : Type} (m : Eval α) (Q : α → Prop) : Prop where
  ok : ∀ s a t, m s = .ok a t → Q a

namespace Answers

variable {α β : Type} {Q : α → Prop}

theorem pure {a : α} (here : Q a) : Answers (Pure.pure a) Q := by
  constructor
  rintro s _ t ⟨⟩
  exact here

theorem bind {m : Eval α} {f : α → Eval β} {R : β → Prop} (then_ : ∀ a, Answers (f a) R) :
    Answers (m >>= f) R := by
  constructor
  intro s b u answered
  change Eval.bind m f s = .ok b u at answered
  unfold Eval.bind at answered
  split at answered
  · exact (then_ _).ok _ _ _ answered
  · cases answered
  · cases answered

theorem ite {c : Prop} [Decidable c] {m n : Eval α} (yes : c → Answers m Q)
    (no : ¬c → Answers n Q) :
    Answers (if c then m else n) Q := by
  by_cases holds : c
  · simpa only [if_pos holds] using yes holds
  · simpa only [if_neg holds] using no holds

theorem raise {c : Cause} : Answers (Eval.raise c) Q := by
  constructor
  rintro s a t ⟨⟩

end Answers

/-- A text is no longer than `bound` bytes; nothing is asked of other values. -/
def ShortText (bound : Nat) (v : Value) : Prop :=
  ∀ text, v = .string text → text.utf8ByteSize ≤ bound

theorem answers_appendTexts (a b : String) :
    Answers (appendTexts a b) (ShortText Value.maxTextLength) := by
  refine .ite (fun _ => .raise) fun short => .pure ?_
  rintro _ ⟨⟩
  simpa using short

theorem answers_add (r : Recursion) (left right : Value) :
    Answers (arith r .add left right) (ShortText Value.maxTextLength) := by
  refine .bind fun a => .bind fun b => .bind fun h => ?_
  split
  · exact answers_appendTexts ..
  · exact answers_appendTexts ..
  · exact .pure nofun

theorem addPrimitives_refused {a b : String}
    (long : Value.maxTextLength < a.utf8ByteSize + b.utf8ByteSize) (s : State) :
    addPrimitives (.string a) (.string b) s = .fault { cause := .range .textLength } s := by
  show appendTexts a b s = _
  rw [appendTexts, if_pos long]
  rfl

/-- A template stays within the limit up to its last part, at which nothing looks. -/
theorem answers_template (r : Recursion) (env : ScopeId) {text : String} {quasis : List String}
    {es : List Expr} (short : text.utf8ByteSize ≤ Value.maxTextLength)
    (parts : quasis.length = es.length + 1) :
    Answers (template r env text quasis es)
      (ShortText (Value.maxTextLength + (quasis.getLastD "").utf8ByteSize)) := by
  induction quasis generalizing text es with
  | nil => simp at parts
  | cons quasi quasis ih =>
    cases es with
    | nil =>
      obtain rfl : quasis = [] := by simpa using parts
      refine .pure ?_
      rintro _ ⟨⟩
      simpa using short
    | cons e es =>
      refine .bind fun v => .bind fun part => .ite (fun _ => .raise) fun fits => ?_
      have rest : quasis.length = es.length + 1 := by simpa using parts
      have last : (quasi :: quasis).getLastD "" = quasis.getLastD "" := by
        cases quasis with
        | nil => simp at rest
        | cons => rfl
      rw [last]
      exact ih (by simpa using fits) rest

theorem length_cycle_le (filler : List Char) (n : Nat) : (Text.cycle filler n).length ≤ n := by
  simp [Text.cycle]

/-- A text is filled up to as many characters as it may have bytes, at most. -/
theorem answers_padding (r : Recursion) (s : String) (args : List Value) :
    Answers (Native.padding r s args)
      fun filler => filler.length + s.length ≤ max s.length Value.maxTextLength := by
  have filled (width : Nat) (filler : String) : Answers
      (if (width ≤ s.length || filler.isEmpty) = true then Pure.pure ""
        else if width > Value.maxTextLength then rangeFault .textLength
        else Pure.pure (String.ofList (Text.cycle filler.toList (width - s.length))))
      fun filler => filler.length + s.length ≤ max s.length Value.maxTextLength := by
    refine .ite (fun _ => .pure ?_) fun open_ => .ite (fun _ => .raise) fun short => .pure ?_
    · simp
    · have bound := length_cycle_le filler.toList (width - s.length)
      simp only [Bool.or_eq_true, decide_eq_true_eq, not_or] at open_
      simp only [String.length_ofList]
      omega
  unfold Native.padding
  refine .bind fun width => ?_
  generalize Native.argument args 1 = filler
  cases filler with
  | undefined => exact .bind fun filler => filled width filler
  | _ => exact .bind fun filler => filled width filler

theorem utf8ByteSize_repeat (s : String) (n : Nat) :
    (Text.replicate s n).utf8ByteSize = s.utf8ByteSize * n := by
  unfold Text.replicate
  split
  next empty =>
    obtain rfl : s = "" := by simpa using empty
    simp
  next =>
    induction n with
    | zero => rfl
    | succ n ih => rw [Nat.repeat, String.utf8ByteSize_append, ih, Nat.mul_succ]

theorem repeated_eq (s : String) (args : List Value) (t : State) : Native.repeated s args t =
    (let count := Number.toInteger (t.heap.number (Native.argument args 0))
      if count < 0.0 || count.isInf then rangeFault (.repeatCount (Number.text count))
      else if Float.ofNat s.utf8ByteSize * count > Float.ofNat Value.maxTextLength then
        rangeFault .textLength
      else if s.isEmpty then pure (.string "")
      else pure (.string (Text.replicate s (Number.toCount Native.maxCount count)))) t :=
  rfl

/-- Repeating a text looks at the bytes of the result, and is refused with everything as it was. A
machine has no room for longer texts to start from. -/
theorem repeated_cases (s : String) (args : List Value) (t : State)
    (room : s.utf8ByteSize < 2 ^ 53) :
    (∃ text, Native.repeated s args t = .ok (.string text) t ∧
      text.utf8ByteSize ≤ Value.maxTextLength) ∨
    ∃ c, Native.repeated s args t = .fault { cause := .range c } t := by
  rw [repeated_eq]
  generalize Number.toInteger (t.heap.number (Native.argument args 0)) = count
  simp only
  split
  · exact .inr ⟨_, rfl⟩
  · rename_i counts
    split
    · exact .inr ⟨_, rfl⟩
    · rename_i within
      split
      · exact .inl ⟨"", rfl, Nat.zero_le _⟩
      · refine .inl ⟨_, rfl, ?_⟩
        rw [utf8ByteSize_repeat]
        have finite : count.isInf = false := by
          cases infinite : count.isInf with
          | false => rfl
          | true => simp [infinite] at counts
        exact Number.mul_toCount_le (l := 28) (by decide) room finite within

end Eval

/-- How long arrays and texts can be. A run from a state within the limit stays there if its
evaluations are modest, that is, but for the steps that make arrays without a look at their length.
In each of its states,

* a property of an array is set with a look, and refused with everything as it was, the largest
  index apart, for which there is no length to look at;
* values are pushed without one;
* sums and templates look at the bytes of a text, the last part of a template apart;
* a text is filled up with a look at its characters, and repeated with one at its bytes. -/
theorem sizes_limited {α : Type} {fuel : Nat} {task : Task α} {s t : State} (within : s.heap.Within)
    (modest : task.EachFrom (fun _ nested s o => nested.Modest s o) fuel s)
    (passes : task.Passes fuel s t) :
    t.heap.Within ∧
    (∀ (r : ArrayRef) (key : String) (value : Value), arrayIndex? key ≠ some maxIndex →
      (t.heap.Refuses r key value ∧
        setProperty (.array r) key value t = .fault { cause := .range .arrayLength } t) ∨
      (¬t.heap.Refuses r key value ∧
        ∃ u, setProperty (.array r) key value t = .ok () u ∧ u.heap.Within)) ∧
    (∀ (r : ArrayRef) (args : List Value), r.index < t.heap.arrays.size →
      ∃ v u, Native.push r args t = .ok v u ∧
        (u.heap.elements r).size = (t.heap.elements r).size + args.length) ∧
    (∀ (r : Recursion) (left right : Value) (text : String) (u : State),
      arith r .add left right t = .ok (.string text) u → text.utf8ByteSize ≤ Value.maxTextLength) ∧
    (∀ a b : String, Value.maxTextLength < a.utf8ByteSize + b.utf8ByteSize →
      addPrimitives (.string a) (.string b) t = .fault { cause := .range .textLength } t) ∧
    (∀ (r : Recursion) (env : ScopeId) (quasis : List String) (es : List Expr) (text : String)
      (u : State), quasis.length = es.length + 1 →
      template r env "" quasis es t = .ok (.string text) u →
      text.utf8ByteSize ≤ Value.maxTextLength + (quasis.getLastD "").utf8ByteSize) ∧
    (∀ (r : Recursion) (text : String) (args : List Value) (filler : String) (u : State),
      Native.padding r text args t = .ok filler u →
      filler.length + text.length ≤ max text.length Value.maxTextLength) ∧
    (∀ (text : String) (args : List Value), text.utf8ByteSize < 2 ^ 53 →
      (∃ out, Native.repeated text args t = .ok (.string out) t ∧
        out.utf8ByteSize ≤ Value.maxTextLength) ∨
      ∃ c, Native.repeated text args t = .fault { cause := .range c } t) := by
  have here := Task.within_of_modest within modest passes
  refine ⟨here, fun r key value _ => ?set, fun r args => push_unlimited r args t, ?sums,
    fun _ _ long => addPrimitives_refused long t, ?templates,
    fun r text args filler u => (answers_padding r text args).ok t filler u,
    fun text args room => repeated_cases text args t room⟩
  case set =>
    rcases setProperty_array_cases r key value t with refused | ⟨fits, u, done, stays⟩
    · exact .inl refused
    · exact .inr ⟨fits, u, done, stays here⟩
  case sums => exact fun r left right text u done =>
    (answers_add r left right).ok t _ u done text rfl
  case templates =>
    intro r env quasis es text u parts done
    exact (answers_template r env (Nat.zero_le _) parts).ok t _ u done text rfl

theorem utf8ByteSize_replicate (n : Nat) :
    (String.ofList (List.replicate n 'x')).utf8ByteSize = n := by
  induction n with
  | zero => rfl
  | succ n ih =>
    rw [List.replicate_succ, ← List.singleton_append, String.ofList_append,
      String.utf8ByteSize_append, ih, Nat.add_comm]
    rfl

/-- A run that makes an array of one element, a push to that array, and texts short and long. -/
theorem sizes_limited_literal :
    ∃ s t : State, s.heap.Within ∧
      (Task.expr (.array ⟨0, 6⟩ [.one (.boolean ⟨1, 5⟩ true)]) Arena.root).EachFrom
        (fun _ nested s o => nested.Modest s o) 1 s ∧
      (Task.expr (.array ⟨0, 6⟩ [.one (.boolean ⟨1, 5⟩ true)]) Arena.root).Passes 1 s t ∧
      t.heap.arrays = #[#[.boolean true]] ∧ t.heap.Within ∧
      (∃ v u, Native.push ⟨0⟩ [.null] t = .ok v u ∧ (u.heap.elements ⟨0⟩).size = 2) ∧
      ("ab".utf8ByteSize ≤ Value.maxTextLength) ∧
      (∃ long, addPrimitives (.string long) (.string "") t =
        .fault { cause := .range .textLength } t) ∧
      ("atrueb".utf8ByteSize ≤ Value.maxTextLength + "b".utf8ByteSize) ∧
      ("".length + "a".length ≤ max "a".length Value.maxTextLength) ∧
      setProperty (.array ⟨0⟩) "16777216" .null t = .fault { cause := .range .arrayLength } t ∧
      ∃ c, Native.repeated "ab" [.number 134217729.0] t = .fault { cause := .range c } t := by
  let s : State := { heap := {}, scopes := .new, realm := default }
  let t : State := { s with heap := (s.heap.newArray #[.boolean true]).2 }
  let task : Task Value := .expr (.array ⟨0, 6⟩ [.one (.boolean ⟨1, 5⟩ true)]) Arena.root
  have done : task.run 1 s = .ok (.array ⟨0⟩) t := rfl
  have empty : s.heap.Within := fun xs member => absurd member (by simp [s])
  have lands : (task.run 1 s).Lands := by
    rintro a u same
    rw [done] at same
    cases same
    exact empty.newArray (by decide)
  have modest : task.EachFrom (fun _ nested s o => nested.Modest s o) 1 s := by
    intro cut
    have nested : ((Guard.watchFrom (fun _ nested s o => nested.Modest s o) cut).recursion 1).expr
        (.boolean ⟨1, 5⟩ true) Arena.root = Pure.pure (.boolean true) :=
      funext fun u => Guard.watchFrom_of_holds cut (s := u) nofun
    have same : task.step
      ((Guard.watchFrom (fun _ nested s o => nested.Modest s o) cut).recursion 1) s =
        task.run 1 s := by
      simp only [task, Task.step, expression, expressionForm, items, nested]
      rfl
    show Guard.watchFrom _ cut _ task _ s = _
    rw [Guard.watchFrom_of_holds cut, same]
    exact fun _ => same ▸ lands
  have passes : task.Passes 1 s t := Task.passes_end (.inl ⟨_, done⟩)
  have long : Value.maxTextLength <
      (String.ofList (List.replicate (Value.maxTextLength + 1) 'x')).utf8ByteSize +
        "".utf8ByteSize := by
    rw [utf8ByteSize_replicate]
    exact Nat.lt_succ_self _
  have padded : Native.padding (Eval.recursion 0) "a" [.undefined, .string ""] t = .ok "" t := by
    show (if (decide (_ ≤ _) || "".isEmpty) = true then (Pure.pure "" : Eval String) else _) t = _
    rw [if_pos (by simp)]
    rfl
  obtain ⟨here, sets, pushes, sums, refused, templates, padding, repeats⟩ :=
    sizes_limited empty modest passes
  have beyond :
      setProperty (.array ⟨0⟩) "16777216" .null t = .fault { cause := .range .arrayLength } t := by
    have index : arrayIndex? "16777216" = some Value.maxArrayLength := by decide +kernel
    have refuses : t.heap.Refuses ⟨0⟩ "16777216" .null := by
      rw [Heap.Refuses, if_neg (by decide), index]
      exact ⟨_, rfl, by decide +kernel, Nat.le_refl _⟩
    have other : arrayIndex? "16777216" ≠ some maxIndex := by
      rw [index]
      decide +kernel
    exact ((sets ⟨0⟩ "16777216" .null other).resolve_right fun fits => fits.1 refuses).2
  have times :
      ∃ c, Native.repeated "ab" [.number 134217729.0] t = .fault { cause := .range c } t := by
    refine (repeats "ab" [.number 134217729.0] (by decide)).resolve_left ?_
    rintro ⟨out, done, -⟩
    have refused : Native.repeated "ab" [.number 134217729.0] t =
        .fault { cause := .range .textLength } t := by
      have counts : (decide (Number.toInteger 134217729.0 < 0.0) ||
          (Number.toInteger 134217729.0).isInf) = false := by
        decide +kernel
      have beyond : Float.ofNat "ab".utf8ByteSize * Number.toInteger 134217729.0 >
          Float.ofNat Value.maxTextLength := by
        decide +kernel
      rw [repeated_eq]
      change (if (decide (Number.toInteger 134217729.0 < 0.0) ||
          (Number.toInteger 134217729.0).isInf) = true then (_ : Eval Value)
        else if Float.ofNat "ab".utf8ByteSize * Number.toInteger 134217729.0 >
          Float.ofNat Value.maxTextLength then _ else _) t = _
      rw [counts, if_neg Bool.false_ne_true, if_pos beyond]
      rfl
    rw [refused] at done
    cases done
  exact ⟨s, t, empty, modest, passes, rfl, here, pushes ⟨0⟩ [.null] Nat.one_pos,
    sums (Eval.recursion 0) (.string "a") (.string "b") "ab" t rfl, ⟨_, refused _ "" long⟩,
    templates (Eval.recursion 1) Arena.root ["a", "b"] [.boolean ⟨1, 5⟩ true] "atrueb" t rfl rfl,
    padding (Eval.recursion 0) "a" [.undefined, .string ""] "" t padded, beyond, times⟩

end Scriptlet
