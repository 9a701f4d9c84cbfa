import Scriptlet.Proofs.Eval.Values

/-!
Functions that come with the language satisfy every contract. They run script code by calling
values, and change nothing but the heap and the console.
-/

namespace Scriptlet

/-- A function that does not look how long the arrays are that it makes or adds to. -/
def Native.grows : Native → Bool
  | .array .push | .array .unshift | .array .concat | .text .split => true
  | .global .keys | .global .values | .global .entries | .global .parseJson => true
  | .host _ => true
  | _ => false

namespace Contract

open Eval Native

variable {C : Contract} [lawful : C.Lawful] {r w : Recursion} {env : ScopeId} {k : Knowledge}

/-! ### Arguments -/

omit lawful in
instance known_argument (args : List Value) (i : Nat) [Known k args] :
    Known k (argument args i) := by
  unfold argument
  infer_instance

omit lawful in
instance known_index (i : Nat) : Known k (index i) :=
  Known.number _

omit lawful in
instance known_indexOrMinusOne (found : Option Nat) : Known k (indexOrMinusOne found) := by
  cases found with
  | none => exact Known.number _
  | some i => exact Known.number _

theorem sat_integerOf (v : Value) : C.Sat env k (integerOf v) (integerOf v) :=
  .gets _

theorem sat_countOf (v : Value) : C.Sat env k (countOf v) (countOf v) :=
  .bind (sat_integerOf v) fun _ _ => .ok

theorem sat_relativeIndex (v : Value) (length missing : Nat) :
    C.Sat env k (relativeIndex v length missing) (relativeIndex v length missing) := by
  refine .ite (fun _ => .ok) fun _ => .bind (sat_integerOf v) ?_
  intro place _
  exact .ite (fun _ => .ok) fun _ => .ok

/-! ### Arrays -/

theorem sat_thisArray (receiver : Value) (method : String) :
    C.Sat env k (thisArray receiver method) (thisArray receiver method) := by
  cases receiver with
  | array => exact .ok
  | _ => exact .typeFault _

theorem sat_callbackOf (args : List Value) (method : String) :
    C.Sat env k (callbackOf args method) (callbackOf args method) := by
  unfold callbackOf
  split
  · exact .typeFault _
  · exact .ok
  · exact .bind (.gets _) fun _ _ => .typeFault _

omit lawful in
theorem size_extract_le (xs : Array Value) (start stop : Nat) :
    (xs.extract start stop).size ≤ xs.size := by
  simp only [Array.size_extract]
  omega

theorem sat_push {grows : Prop} (may : grows) (ref : ArrayRef) (args : List Value) [Known k args] :
    C.SatLanding grows env k (push ref args) (push ref args) :=
  .setArray may ref _ _

theorem sat_unshift {grows : Prop} (may : grows) (ref : ArrayRef) (args : List Value)
    [Known k args] :
    C.SatLanding grows env k (unshift ref args) (unshift ref args) :=
  .setArray may ref _ _

theorem sat_pop (ref : ArrayRef) : C.Sat env k (pop ref) (pop ref) := by
  refine .bind (.gets _) fun _ _ => .bind (.setArray ref _ fun _ xs sized => ?_) fun _ _ => .ok
  rw [Array.size_pop]
  omega

theorem sat_shift (ref : ArrayRef) : C.Sat env k (shift ref) (shift ref) := by
  refine .bind (.gets _) fun _ _ => .bind (.setArray ref _ fun _ xs sized => ?_) fun _ _ => .ok
  exact (size_extract_le xs ..).trans sized

theorem sat_slice (ref : ArrayRef) (args : List Value) :
    C.Sat env k (slice ref args) (slice ref args) := by
  refine .bind (P := fun xs => C.bounded → xs.size ≤ Value.maxArrayLength)
    (.reads _ fun _ within bounded => (within bounded).elements ref) fun xs sized => ?_
  exact .bind (sat_relativeIndex ..) fun _ _ => .bind (sat_relativeIndex ..) fun _ _ =>
    .newArray _ fun bounded => (size_extract_le xs ..).trans (sized bounded)

omit lawful in
instance known_parts (h : Heap) (v : Value) [Known k h] [Known k v] : Known k (parts h v) := by
  unfold parts
  split
  · infer_instance
  · exact @Known.toArray k Value _ [v] inferInstance

omit lawful in
instance known_joined (h : Heap) (all : Array Value) (args : List Value) [Known k h] [Known k all]
    [given : Known k args] : Known k (args.foldl (fun xs v => xs ++ parts h v) all) := by
  induction args generalizing all given with
  | nil => assumption
  | cons v rest ih =>
    obtain ⟨_, _⟩ := Known.cons_iff.1 given
    exact ih _

/-- A step of a walk that knows no more than what it is given, and takes in one element at most. -/
structure Keeps {σ τ : Type} [Mentions σ] [Mentions τ]
    (step : σ → Nat → Value → Value → Except τ σ) (count : σ → Nat) : Prop where
  known : ∀ (k : Knowledge) (acc place x result) [Known k acc] [Known k x] [Known k result],
    Known k (step acc place x result)
  step : ∀ acc place x result next, step acc place x result = .ok next → count next ≤ count acc + 1

omit lawful in
/-- A step of a walk that takes in nothing. -/
theorem Keeps.of_known {σ τ : Type} [Mentions σ] [Mentions τ]
    {step : σ → Nat → Value → Value → Except τ σ}
    (known : ∀ (k : Knowledge) (acc place x result) [Known k acc] [Known k x] [Known k result],
      Known k (step acc place x result)) : Keeps step fun _ => 0 :=
  ⟨known, fun _ _ _ _ _ _ => Nat.zero_le _⟩

theorem sat_concat {grows : Prop} (may : grows) (ref : ArrayRef) (args : List Value)
    [Known k args] :
    C.SatLanding grows env k (concat ref args) (concat ref args) :=
  .bind (.gets _) fun _ _ => .newArray may _

theorem sat_indexOf (ref : ArrayRef) (args : List Value) :
    C.Sat env k (indexOf ref args) (indexOf ref args) :=
  .bind (.gets _) fun _ _ => .bind (sat_relativeIndex ..) fun _ _ => .ok

section Fits

variable (fits : C.Fits r w)
include fits

/-- What a walk has taken in grows by one with each element at most. -/
theorem sat_walk {σ τ : Type} [Mentions σ] [Mentions τ] (ref : ArrayRef) (callback receiver : Value)
    {step : σ → Nat → Value → Value → Except τ σ} {count : σ → Nat} (keeps : Keeps step count)
    (place : Nat) (acc : σ) (fuel : Nat) [Known k callback] [Known k receiver] [Known k acc] :
    C.Sat env k (walk r ref callback receiver step place acc fuel)
      (walk w ref callback receiver step place acc fuel)
      fun result => ∀ last, result = .ok last → count last ≤ count acc + fuel := by
  induction fuel generalizing place acc k with
  | zero =>
    refine .pure ?_
    rintro last ⟨⟩
    exact Nat.le_refl _
  | succ fuel ih =>
    apply Sat.bind (.gets _)
    intro x _
    split
    · refine .pure ?_
      rintro last ⟨⟩
      exact Nat.le_add_right ..
    · rename_i x
      apply Sat.bind (fits.call ..)
      intro result _
      have := keeps.known ((k.plus (some x)).plus result) acc place x result
      split
      · rename_i found stops
        have : Known ((k.plus (some x)).plus result) (Except.error found : Except τ σ) :=
          stops ▸ this
        exact .pure (by rintro last ⟨⟩)
      · rename_i next goes
        have : Known ((k.plus (some x)).plus result) (Except.ok next : Except τ σ) := goes ▸ this
        have : Known ((k.plus (some x)).plus result) next := ⟨this.subset⟩
        have step := keeps.step acc place x result next goes
        refine (ih ..).weaken fun result bounds last same => ?_
        have := bounds last same
        omega

theorem sat_eachElement {σ τ : Type} [Mentions σ] [Mentions τ] (receiver : Value)
    (args : List Value)
    (method : ArrayMethod) (start : σ) {step : σ → Nat → Value → Value → Except τ σ}
    {count : σ → Nat} (keeps : Keeps step count) (empty : count start = 0) [Known k receiver]
    [Known k args]
    [Known k start] :
    C.Sat env k (eachElement r receiver args method start step)
      (eachElement w receiver args method start step)
      fun result => ∀ last, result = .ok last → C.bounded → count last ≤ Value.maxArrayLength := by
  refine .bind (sat_thisArray ..) fun ref _ => .bind (sat_callbackOf ..) fun _ _ => ?_
  refine .bind (P := fun size => C.bounded → size ≤ Value.maxArrayLength)
    (.reads _ fun _ within bounded => (within bounded).elements ref) fun size sized => ?_
  refine (sat_walk fits _ _ _ keeps ..).weaken fun result bounds last same bounded => ?_
  exact (bounds last same).trans (by simpa [empty] using sized bounded)

theorem sat_map (receiver : Value) (args : List Value) [Known k receiver] [Known k args] :
    C.Sat env k (Native.map r receiver args) (Native.map w receiver args) := by
  have keeps : Keeps
    (fun (acc : Array Value) _ _ result => (.ok (acc.push result) : Except Empty _))
      Array.size := by
    refine ⟨fun _ _ _ _ _ => inferInstance, ?_⟩
    rintro acc _ _ _ _ ⟨⟩
    exact Array.size_push .. |>.le
  apply Sat.bind (sat_eachElement fits receiver args .map #[] keeps rfl)
  intro result sized
  split
  exact .newArray _ (sized _ rfl)

theorem sat_filter (receiver : Value) (args : List Value) [Known k receiver] [Known k args] :
    C.Sat env k (Native.filter r receiver args) (Native.filter w receiver args) := by
  have keeps : Keeps (fun (acc : Array Value) _ x result =>
      (.ok (if result.truthy then acc.push x else acc) : Except Empty _)) Array.size := by
    refine ⟨fun _ _ _ _ _ => inferInstance, ?_⟩
    rintro acc _ x result _ ⟨⟩
    split
    · exact Array.size_push .. |>.le
    · exact Nat.le_succ _
  apply Sat.bind (sat_eachElement fits receiver args .filter #[] keeps rfl)
  intro result sized
  split
  exact .newArray _ (sized _ rfl)

theorem sat_forEach (receiver : Value) (args : List Value) [Known k receiver] [Known k args] :
    C.Sat env k (Native.forEach r receiver args) (Native.forEach w receiver args) :=
  .bind (.discard (sat_eachElement fits receiver args .forEach ()
    (.of_known fun _ _ _ _ _ => inferInstance) rfl)) fun _ _ => .ok

theorem sat_search (receiver : Value) (args : List Value) (method : ArrayMethod) (wanted : Bool)
    [Known k receiver] [Known k args] :
    C.Sat env k (search r receiver args method wanted) (search w receiver args method wanted) := by
  apply Sat.bind (sat_eachElement fits receiver args method ()
    (.of_known fun _ _ _ _ _ => inferInstance) rfl)
  intro result _
  split
  · exact .ok
  · exact .ok

theorem sat_fold (ref : ArrayRef) (callback : Value) (place : Nat) (acc : Value) (count : Nat)
    [Known k callback] [Known k acc] :
    C.Sat env k (fold r ref callback place acc count) (fold w ref callback place acc count) := by
  induction count generalizing place acc k with
  | zero => exact .ok
  | succ count ih =>
    apply Sat.bind (.gets _)
    intro x _
    split
    · exact .ok
    · exact .bind (fits.call ..) fun _ _ => ih ..

theorem sat_reduce (receiver : Value) (args : List Value) [Known k receiver] [Known k args] :
    C.Sat env k (reduce r receiver args) (reduce w receiver args) := by
  refine .bind (sat_thisArray ..) fun ref _ => .bind (sat_callbackOf ..) ?_
  intro callback _
  apply Sat.bind (.gets _)
  intro xs _
  split
  · rename_i start given
    have : Known k start := .of_mem ‹Known k args› (List.mem_of_getElem? given)
    exact sat_fold fits ..
  · rename_i x _ first
    have : Known (((k.plus ref).plus callback).plus xs) x := .of_some first
    exact sat_fold fits ..
  · exact .typeFault _

theorem sat_comesBefore (comparator : Option Value) (a b : Value) [Known k comparator] [Known k a]
    [Known k b] : C.Sat env k (comesBefore r comparator a b) (comesBefore w comparator a b) := by
  cases comparator with
  | some f =>
    have : Known k f := Known.some_iff.1 ‹_›
    exact .bind (fits.call ..) fun result _ => .bind (sat_toNumber fits result) fun _ _ => .ok
  | none => exact .bind (sat_toText fits a) fun _ _ => .bind (sat_toText fits b) fun _ _ => .ok

omit fits in
theorem sat_merge {before before' : Value → Value → Eval Bool}
    (sat : ∀ a b [Known k a] [Known k b], C.Sat env k (before a b) (before' a b))
    (merged xs ys : List Value) [first : Known k merged] [second : Known k xs]
    [third : Known k ys] :
    C.Sat env k (merge before merged xs ys) (merge before' merged xs ys)
      fun list => list.length = merged.length + (xs.length + ys.length) := by
  fun_induction merge before merged xs ys generalizing first second third with
  | case1 merged ys =>
    rw [merge]
    exact .pure (by simp)
  | case2 merged xs nonempty =>
    rw [merge.eq_2 before' merged xs nonempty]
    exact .pure (by simp)
  | case3 merged x xs y ys takeRight takeLeft =>
    obtain ⟨_, _⟩ := Known.cons_iff.1 second
    obtain ⟨_, _⟩ := Known.cons_iff.1 third
    rw [merge]
    refine .bind (sat y x) fun _ _ => .ite (fun _ => ?_) fun _ => ?_
    · refine (takeRight.told _).weaken fun list length => length.trans ?_
      simp only [List.length_cons]
      omega
    · refine (takeLeft.told _).weaken fun list length => length.trans ?_
      simp only [List.length_cons]
      omega

omit fits in
theorem sat_mergeSort {before before' : Value → Value → Eval Bool}
    (sat : ∀ {told : Knowledge}, k ⊆ told → ∀ (a b) [Known told a] [Known told b],
      C.Sat env told (before a b) (before' a b))
    (xs : List Value) [given : Known k xs] :
    C.Sat env k (mergeSort before xs) (mergeSort before' xs) fun list =>
      list.length = xs.length := by
  fun_induction mergeSort before xs generalizing given with
  | case1 xs short =>
    rw [mergeSort.eq_def before' xs, if_pos short]
    exact .pure rfl
  | case2 xs long left right =>
    rw [mergeSort.eq_def before' xs, if_neg long]
    refine .bind left fun first same => .bind (right.told first) fun second same' => ?_
    refine (sat_merge (sat (Knowledge.subset_plus.trans Knowledge.subset_plus)) ..).weaken ?_
    intro list length
    rw [length, same, same', List.length_nil, Nat.zero_add, ← List.length_append,
      List.take_append_drop]

theorem sat_sort (receiver : Value) (args : List Value) [Known k receiver] [Known k args] :
    C.Sat env k (sort r receiver args) (sort w receiver args) := by
  have sorts {told : Knowledge} (comparator : Option Value) (xs : List Value)
      [given : Known told comparator] [Known told xs] :
      C.Sat env told (mergeSort (comesBefore r comparator) xs)
        (mergeSort (comesBefore w comparator) xs) fun list => list.length = xs.length := by
    refine sat_mergeSort ?_ xs
    intro later more a b _ _
    have : Known later comparator := given.more more
    exact sat_comesBefore fits comparator a b
  have listed {told : Knowledge} (ref : ArrayRef) : C.Sat env told
      (gets fun s => (s.heap.elements ref).toList) (gets fun s => (s.heap.elements ref).toList)
      fun xs => C.bounded → xs.length ≤ Value.maxArrayLength :=
    .reads _ fun s within bounded => (within bounded).elements ref
  -- the array gets back as many elements as it had
  have back {xs sorted : List Value} (same : sorted.length = (xs.filter (!·.isUndefined)).length)
      (sized : xs.length ≤ Value.maxArrayLength) :
      (sorted ++ xs.filter (·.isUndefined)).toArray.size ≤ Value.maxArrayLength := by
    have parts :
        xs.length = (xs.filter (·.isUndefined)).length + (xs.filter (!·.isUndefined)).length := by
      simp only [← List.countP_eq_length_filter]
      simpa using xs.length_eq_countP_add_countP (·.isUndefined)
    simp only [List.size_toArray, List.length_append, same]
    omega
  unfold sort
  simp only [List.partition_eq_filter_filter]
  apply Sat.bind (sat_thisArray ..)
  intro ref _
  split
  · exact .bind .ok fun comparator _ => .bind (listed ref) fun xs sized =>
      .bind (sorts comparator _) fun sorted same =>
        .bind (.setArray ref _ fun bounded _ _ => back same (sized bounded)) fun _ _ => .ok
  · exact .bind .ok fun comparator _ => .bind (listed ref) fun xs sized =>
      .bind (sorts comparator _) fun sorted same =>
        .bind (.setArray ref _ fun bounded _ _ => back same (sized bounded)) fun _ _ => .ok
  · refine .bind (P := fun _ => False) (.typeFault _) fun _ absurd => absurd.elim

theorem sat_elementTexts (ref : ArrayRef) (texts : List String) (xs : List Value)
    [given : Known k xs] :
    C.Sat env k (elementTexts r ref texts xs) (elementTexts w ref texts xs) := by
  induction xs generalizing texts k given with
  | nil => exact .ok
  | cons x rest ih =>
    obtain ⟨_, _⟩ := Known.cons_iff.1 given
    unfold elementTexts
    split
    · exact .bind .ok fun _ _ => ih _
    · exact .bind .ok fun _ _ => ih _
    · refine .ite (fun _ => ?_) fun _ => ?_
      · exact .bind .ok fun _ _ => ih _
      · exact .bind (sat_toText fits _) fun _ _ => ih _
    · exact .bind (sat_toText fits _) fun _ _ => ih _

theorem sat_join (receiver : Value) (args : List Value) [Known k receiver] [Known k args] :
    C.Sat env k (join r receiver args) (join w receiver args) := by
  unfold join
  apply Sat.bind (sat_thisArray ..)
  intro ref _
  split
  · exact .bind .ok fun _ _ => .bind (.gets _) fun _ _ =>
      .bind (sat_elementTexts fits ..) fun _ _ => .ok
  · exact .bind (sat_toText fits _) fun _ _ => .bind (.gets _) fun _ _ =>
      .bind (sat_elementTexts fits ..) fun _ _ => .ok

theorem sat_arrayMethod (m : ArrayMethod) (receiver : Value) (args : List Value) [Known k receiver]
    [Known k args] :
    C.SatLanding ((Native.array m).grows = true) env k (arrayMethod r m receiver args)
      (arrayMethod w m receiver args) := by
  cases m with
  | push => exact .bind (sat_thisArray ..) fun _ _ => sat_push rfl ..
  | unshift => exact .bind (sat_thisArray ..) fun _ _ => sat_unshift rfl ..
  | concat => exact .bind (sat_thisArray ..) fun _ _ => sat_concat rfl ..
  | pop => exact .of_sat (.bind (sat_thisArray ..) fun _ _ => sat_pop _)
  | shift => exact .of_sat (.bind (sat_thisArray ..) fun _ _ => sat_shift _)
  | slice => exact .of_sat (.bind (sat_thisArray ..) fun _ _ => sat_slice ..)
  | join => exact .of_sat (sat_join fits ..)
  | indexOf => exact .of_sat (.bind (sat_thisArray ..) fun _ _ => sat_indexOf ..)
  | includes => exact .of_sat (.bind (sat_thisArray ..) fun _ _ => .gets _)
  | reverse =>
    refine .of_sat (.bind (sat_thisArray ..) fun ref _ =>
      .bind (.setArray ref _ fun _ xs sized => ?_) fun _ _ => .ok)
    exact Array.size_reverse.trans_le sized
  | map => exact .of_sat (sat_map fits ..)
  | filter => exact .of_sat (sat_filter fits ..)
  | forEach => exact .of_sat (sat_forEach fits ..)
  | reduce => exact .of_sat (sat_reduce fits ..)
  | some => exact .of_sat (.bind (sat_search fits ..) fun _ _ => .ok)
  | every => exact .of_sat (.bind (sat_search fits ..) fun _ _ => .ok)
  | find => exact .of_sat (.bind (sat_search fits ..) fun _ _ => .ok)
  | findIndex => exact .of_sat (.bind (sat_search fits ..) fun _ _ => .ok)
  | sort => exact .of_sat (sat_sort fits ..)
  | toString => exact .of_sat (sat_join fits receiver [])

/-! ### Functions and objects -/

theorem sat_apply (receiver : Value) (args : List Value) [Known k receiver] [Known k args] :
    C.Sat env k (Native.apply r receiver args) (Native.apply w receiver args) := by
  unfold Native.apply
  split
  · exact .bind .ok fun _ _ => fits.call ..
  · exact .bind .ok fun _ _ => fits.call ..
  · exact .bind (.gets _) fun _ _ => fits.call ..
  · exact .bind (P := fun _ => False) (.typeFault _) fun _ absurd => absurd.elim

omit fits in
theorem sat_bound (receiver : Value) (args : List Value) [Known k receiver] [Known k args] :
    C.Sat env k (Native.bind receiver args) (Native.bind receiver args) := by
  cases receiver with
  | function => exact .bind (.gets _) fun _ _ => .newNative ..
  | _ => exact .typeFault _

theorem sat_functionMethod (m : FunctionMethod) (receiver : Value) (args : List Value)
    [Known k receiver] [Known k args] :
    C.Sat env k (functionMethod r m receiver args) (functionMethod w m receiver args) := by
  cases m with
  | call => exact fits.call ..
  | apply => exact sat_apply fits ..
  | bind => exact sat_bound ..
  | toString => exact .gets _

theorem sat_objectMethod (m : ObjectMethod) (receiver : Value) (args : List Value)
    [Known k receiver] [Known k args] :
    C.Sat env k (objectMethod r m receiver args) (objectMethod w m receiver args) := by
  cases m with
  | hasOwnProperty =>
    apply Sat.bind (sat_toKey fits _)
    intro key _
    split
    · exact .gets _
    · exact .ok
  | toString => exact .ok
  | valueOf => exact .ok

/-! ### Numbers and texts -/

omit fits in
theorem sat_numberMethod (m : NumberMethod) (receiver : Value) (args : List Value)
    [Known k receiver] [Known k args] :
    C.Sat env k (numberMethod m receiver args) (numberMethod m receiver args) := by
  have this : C.Sat env k (thisNumber receiver) (thisNumber receiver) := by
    cases receiver with
    | number => exact .ok
    | _ => exact .typeFault _
  cases m with
  | toFixed =>
    refine .bind this fun x _ => .bind (sat_integerOf _) ?_
    intro digits _
    refine .ite (fun _ => .rangeFault _) ?_
    intro _
    split
    · exact .ite (fun _ => .ok) fun _ => .ok
    · exact .ok
  | toString =>
    apply Sat.bind this
    intro x _
    unfold toStringIn
    split
    · exact .bind .ok fun _ _ => .ite (fun _ => .rangeFault _) fun _ =>
        .ite (fun _ => .ok) fun _ => .ok
    · exact .bind (sat_integerOf _) fun _ _ => .ite (fun _ => .rangeFault _) fun _ =>
        .ite (fun _ => .ok) fun _ => .ok
  | valueOf => exact .ok

theorem sat_thisText (receiver : Value) [Known k receiver] :
    C.Sat env k (thisText r receiver) (thisText w receiver) := by
  unfold thisText
  split
  · exact .ok
  · exact .typeFault _
  · exact .typeFault _
  · exact sat_toText fits _

theorem sat_textArgument (args : List Value) (i : Nat) [Known k args] :
    C.Sat env k (textArgument r args i) (textArgument w args i) :=
  sat_toText fits _

omit fits in
theorem sat_charAt? (s : String) (place : Value) :
    C.Sat env k (charAt? s place) (charAt? s place) :=
  .bind (sat_integerOf place) fun _ _ => .ok

omit fits in
theorem sat_textSlice (s : String) (args : List Value) :
    C.Sat env k (textSlice s args) (textSlice s args) :=
  .bind (sat_relativeIndex ..) fun _ _ => .bind (sat_relativeIndex ..) fun _ _ => .ok

omit fits in
theorem sat_placeOf (v : Value) (length missing : Nat) :
    C.Sat env k (placeOf v length missing) (placeOf v length missing) :=
  .ite (fun _ => .ok) fun _ => .bind (sat_integerOf v) fun _ _ => .ok

omit fits in
theorem sat_substring (s : String) (args : List Value) :
    C.Sat env k (substring s args) (substring s args) :=
  .bind (sat_placeOf ..) fun _ _ => .bind (sat_placeOf ..) fun _ _ => .ok

theorem sat_textIndexOf (s : String) (args : List Value) [Known k args] :
    C.Sat env k (textIndexOf r s args) (textIndexOf w s args) :=
  .bind (sat_textArgument fits ..) fun _ _ => .bind (sat_countOf _) fun _ _ => .ok

theorem sat_startsWith (s : String) (args : List Value) [Known k args] :
    C.Sat env k (startsWith r s args) (startsWith w s args) :=
  .bind (sat_textArgument fits ..) fun _ _ => .bind (sat_countOf _) fun _ _ => .ok

theorem sat_split {grows : Prop} (may : grows) (s : String) (args : List Value) [Known k args] :
    C.SatLanding grows env k (split r s args) (split w s args) := by
  unfold split
  have : Known k (argument args 0) := inferInstance
  generalize argument args 1 = limit
  generalize argument args 0 = separator at this ⊢
  cases limit with
  | undefined =>
    apply SatLanding.bind .ok
    intro _ _
    cases separator with
    | undefined => exact .bind .ok fun _ _ => .newArray may _
    | _ => exact .bind (sat_toText fits _) fun _ _ => .bind .ok fun _ _ => .newArray may _
  | _ =>
    apply SatLanding.bind (.gets _)
    intro _ _
    cases separator with
    | undefined => exact .bind .ok fun _ _ => .newArray may _
    | _ => exact .bind (sat_toText fits _) fun _ _ => .bind .ok fun _ _ => .newArray may _

omit fits in
theorem sat_repeated (s : String) (args : List Value) :
    C.Sat env k (repeated s args) (repeated s args) := by
  refine .bind (sat_integerOf _) fun count _ => .ite (fun _ => .rangeFault _) ?_
  intro _
  exact .ite (fun _ => .rangeFault _) fun _ => .ite (fun _ => .ok) fun _ => .ok

theorem sat_padding (s : String) (args : List Value) [Known k args] :
    C.Sat env k (padding r s args) (padding w s args) := by
  unfold padding
  apply Sat.bind (sat_countOf _)
  intro width _
  have : Known k (argument args 1) := inferInstance
  generalize argument args 1 = filler at this ⊢
  cases filler with
  | undefined =>
    exact .bind .ok fun _ _ => .ite (fun _ => .ok) fun _ =>
      .ite (fun _ => .rangeFault _) fun _ => .ok
  | _ =>
    exact .bind (sat_toText fits _) fun _ _ => .ite (fun _ => .ok) fun _ =>
      .ite (fun _ => .rangeFault _) fun _ => .ok

theorem sat_appendAll (s : String) (vs : List Value) [given : Known k vs] :
    C.Sat env k (appendAll r s vs) (appendAll w s vs) := by
  induction vs generalizing s k given with
  | nil => exact .ok
  | cons v rest ih =>
    obtain ⟨_, _⟩ := Known.cons_iff.1 given
    exact .bind (sat_toText fits v) fun _ _ => ih _

theorem sat_textMethod (m : TextMethod) (receiver : Value) (args : List Value) [Known k receiver]
    [Known k args] :
    C.SatLanding ((Native.text m).grows = true) env k (textMethod r m receiver args)
      (textMethod w m receiver args) := by
  cases m with
  | toString => exact .of_sat .ok
  | valueOf => exact .of_sat .ok
  | charAt =>
    exact .of_sat (.bind (sat_thisText fits _) fun _ _ => .bind (sat_charAt? ..) fun _ _ => .ok)
  | charCodeAt =>
    refine .of_sat (.bind (sat_thisText fits _) fun _ _ => .bind (sat_charAt? ..) ?_)
    intro c _
    split
    · exact .ok
    · exact .ok
  | indexOf => exact .of_sat (.bind (sat_thisText fits _) fun _ _ => sat_textIndexOf fits ..)
  | includes =>
    exact .of_sat
      (.bind (sat_thisText fits _) fun _ _ => .bind (sat_textArgument fits ..) fun _ _ => .ok)
  | slice => exact .of_sat (.bind (sat_thisText fits _) fun _ _ => sat_textSlice ..)
  | substring => exact .of_sat (.bind (sat_thisText fits _) fun _ _ => sat_substring ..)
  | split => exact .bind (sat_thisText fits _) fun _ _ => sat_split fits rfl ..
  | startsWith => exact .of_sat (.bind (sat_thisText fits _) fun _ _ => sat_startsWith fits ..)
  | endsWith =>
    exact .of_sat
      (.bind (sat_thisText fits _) fun _ _ => .bind (sat_textArgument fits ..) fun _ _ => .ok)
  | «repeat» => exact .of_sat (.bind (sat_thisText fits _) fun _ _ => sat_repeated ..)
  | padStart =>
    exact .of_sat
      (.bind (sat_thisText fits _) fun _ _ => .bind (sat_padding fits ..) fun _ _ => .ok)
  | padEnd =>
    exact .of_sat
      (.bind (sat_thisText fits _) fun _ _ => .bind (sat_padding fits ..) fun _ _ => .ok)
  | concat =>
    exact .of_sat
      (.bind (sat_thisText fits _) fun _ _ => .bind (sat_appendAll fits ..) fun _ _ => .ok)
  | _ => exact .of_sat (.bind (sat_thisText fits _) fun _ _ => .ok)

/-! ### Globals -/

omit fits in
theorem sat_stringify (args : List Value) : C.Sat env k (stringify args) (stringify args) := by
  apply Sat.bind (.gets _)
  intro result _
  split
  · exact .typeFault _
  · exact .ok
  · exact .ok

theorem sat_parseJson {grows : Prop} (may : grows) (args : List Value) [Known k args] :
    C.SatLanding grows env k (parseJson r args) (parseJson w args) := by
  apply SatLanding.bind (sat_toText fits _)
  intro text _
  split
  · exact sat_fromJson may _
  · exact .of_sat (.bind (sat_makeError ..) fun _ _ => .raise (by simp [Cause.kind]))

theorem sat_choose (pick : Float → Float → Float) (best : Float) (vs : List Value)
    [given : Known k vs] : C.Sat env k (choose r pick best vs) (choose w pick best vs) := by
  induction vs generalizing best k given with
  | nil => exact .ok
  | cons v rest ih =>
    obtain ⟨_, _⟩ := Known.cons_iff.1 given
    exact .bind (sat_toNumber fits v) fun _ _ => .ite (fun _ => .ok) fun _ => ih _

omit fits in
theorem sat_objectArgument (f : GlobalFunction) (args : List Value) [Known k args] :
    C.Sat env k (objectArgument f args) (objectArgument f args) := by
  unfold objectArgument
  split
  · exact .typeFault _
  · exact .typeFault _
  · exact .ok

omit fits in
theorem sat_pairs (made : Array Value) (entries : List (String × Value)) [Known k made]
    [given : Known k entries] : C.Sat env k (pairs made entries) (pairs made entries) := by
  induction entries generalizing made k given with
  | nil => exact .ok
  | cons e rest ih =>
    obtain ⟨first, _⟩ := Known.cons_iff.1 given
    have := (Known.pair_iff.1 first).2
    exact .bind (.newArray _ fun _ => (by decide : 2 ≤ Value.maxArrayLength)) fun _ _ => ih _

omit fits in
theorem sat_assignKeys (target source : Value) (keys : List String) :
    C.Sat env k (assignKeys target source keys) (assignKeys target source keys) := by
  induction keys generalizing k with
  | nil => exact .ok
  | cons key rest ih =>
    exact .bind (.gets _) fun _ _ => .bind (sat_setProperty ..) fun _ _ => ih

omit fits in
theorem sat_assignAll (target : Value) (sources : List Value) :
    C.Sat env k (assignAll target sources) (assignAll target sources) := by
  induction sources generalizing k with
  | nil => exact .ok
  | cons source rest ih =>
    refine .ite (fun _ => ih) ?_
    intro _
    exact .bind (.gets _) fun _ _ => .bind (sat_assignKeys ..) fun _ _ => ih

theorem sat_errorText (receiver : Value) [Known k receiver] :
    C.Sat env k (errorText r receiver) (errorText w receiver) := by
  unfold errorText
  refine .bind (sat_getProperty ..) fun name _ => .bind (sat_getProperty ..) ?_
  intro message _
  refine .ite (fun _ => .bind .ok fun n _ => ?_) fun _ => .bind (sat_toText fits _) fun n _ => ?_
  · exact .ite (fun _ => .bind .ok fun _ _ => .ok) fun _ => .bind (sat_toText fits _) fun _ _ => .ok
  · exact .ite (fun _ => .bind .ok fun _ _ => .ok) fun _ => .bind (sat_toText fits _) fun _ _ => .ok

theorem sat_makeInstance (prototype : ObjectRef) (receiver : Value) (args : List Value)
    [Known k prototype] [Known k receiver] [Known k args] :
    C.Sat env k (makeInstance r prototype receiver args)
      (makeInstance w prototype receiver args) := by
  have fresh {told : Knowledge} [Known told prototype] : C.Sat env told
      (do return Value.object (← Eval.newObject { prototype := some prototype }))
      (do return Value.object (← Eval.newObject { prototype := some prototype })) :=
    .bind (.newObject _) fun _ _ => .ok
  unfold makeInstance
  have : Known k (argument args 0) := inferInstance
  generalize argument args 0 = message at this ⊢
  cases receiver with
  | object o =>
    refine .bind (.gets _) fun p _ => .ite (fun _ => .bind .ok fun target _ => ?_) fun _ =>
      .bind fresh fun target _ => ?_
    all_goals
      cases message with
      | undefined => exact .ok
      | _ => exact .bind (sat_toText fits _) fun _ _ => .bind (sat_setProperty ..) fun _ _ => .ok
  | _ =>
    apply Sat.bind fresh
    intro target _
    cases message with
    | undefined => exact .ok
    | _ => exact .bind (sat_toText fits _) fun _ _ => .bind (sat_setProperty ..) fun _ _ => .ok

omit lawful fits in
instance known_errorParts (h : Heap) (v : Value) [Known k h] : Known k (h.errorParts? v) := by
  unfold Heap.errorParts?
  split
  · split
    · rename_i name message named told
      have : Known k name := .of_some named
      have : Known k message := .of_some told
      infer_instance
    · infer_instance
  · infer_instance

theorem sat_consoleParts (shown : List String) (vs : List Value) [given : Known k vs] :
    C.Sat env k (consoleParts r shown vs) (consoleParts w shown vs) := by
  induction vs generalizing shown k given with
  | nil => exact .ok
  | cons v rest ih =>
    obtain ⟨_, _⟩ := Known.cons_iff.1 given
    unfold consoleParts
    split
    · exact .bind .ok fun _ _ => ih _
    · refine .bind (.gets _) fun parts _ => .ite (fun _ => ?_) fun _ => ?_
      · exact .bind (sat_toText fits _) fun _ _ => ih _
      · exact .bind (.gets _) fun _ _ => ih _

theorem sat_log (args : List Value) [Known k args] : C.Sat env k (log r args) (log w args) := by
  refine .bind (sat_consoleParts fits ..) fun line _ => .bind (P := fun _ => True) ?_ fun _ _ => .ok
  refine .plain ?_
  intro s sound _ _
  obtain ⟨sound', kept⟩ := lawful.console s (String.intercalate " " line :: s.console) sound
  exact ⟨sound', kept, trivial, inferInstance⟩

theorem sat_globalFunction (f : GlobalFunction) (receiver : Value) (args : List Value)
    [Known k receiver] [given : Known k args] :
    C.SatLanding ((Native.global f).grows = true) env k (globalFunction r f receiver args)
      (globalFunction w f receiver args) := by
  cases f with
  | stringify => exact .of_sat (sat_stringify _)
  | parseJson => exact sat_parseJson fits rfl _
  | math => exact .of_sat (.bind (sat_toNumber fits _) fun _ _ => .ok)
  | max => exact .of_sat (sat_choose fits ..)
  | min => exact .of_sat (sat_choose fits ..)
  | pow =>
    exact .of_sat
      (.bind (sat_toNumber fits _) fun _ _ => .bind (sat_toNumber fits _) fun _ _ => .ok)
  | keys =>
    exact .bind (sat_objectArgument ..) fun _ _ => .bind (.gets _) fun _ _ => .newArray rfl _
  | values =>
    exact .bind (sat_objectArgument ..) fun _ _ => .bind (.gets _) fun _ _ => .newArray rfl _
  | entries =>
    exact .bind (sat_objectArgument ..) fun _ _ => .bind (.gets _) fun _ _ =>
      .bind (sat_pairs ..) fun _ _ => .newArray rfl _
  | assign =>
    exact .of_sat (.bind (sat_objectArgument ..) fun _ _ => .bind (sat_assignAll ..) fun _ _ => .ok)
  | isArray =>
    unfold globalFunction
    simp only
    split
    · exact .of_sat .ok
    · exact .of_sat .ok
  | log => exact .of_sat (sat_log fits _)
  | string =>
    cases args with
    | nil => exact .of_sat .ok
    | cons v _ =>
      obtain ⟨_, _⟩ := Known.cons_iff.1 given
      exact .of_sat (.bind (sat_toText fits v) fun _ _ => .ok)
  | number =>
    cases args with
    | nil => exact .of_sat .ok
    | cons v _ =>
      obtain ⟨_, _⟩ := Known.cons_iff.1 given
      exact .of_sat (.bind (sat_toNumber fits v) fun _ _ => .ok)
  | boolean => exact .of_sat .ok
  | parseInt =>
    refine .of_sat (.bind (sat_toText fits _) ?_)
    intro text _
    split
    · exact .bind (.gets _) fun _ _ => .ok
    · exact .bind .ok fun _ _ => .ok
  | parseFloat => exact .of_sat (.bind (sat_toText fits _) fun _ _ => .ok)
  | isNaN => exact .of_sat (.bind (sat_toNumber fits _) fun _ _ => .ok)
  | isFinite => exact .of_sat (.bind (sat_toNumber fits _) fun _ _ => .ok)
  | errorText => exact .of_sat (sat_errorText fits _)

/-! ### Lent by the host -/

theorem sat_hostStep (seen : List Value) (step : HostStep) [Known k seen] :
    C.Sat env k (hostStep r seen step) (hostStep w seen step) := by
  cases step with
  | get v key => exact sat_getProperty ..
  | set v key value => exact .bind (sat_setProperty ..) fun _ _ => .ok
  | call callee receiver args => exact fits.call ..

omit fits in
theorem sat_handling {handles : Option Value → Bool} {m m' : Eval Value} (sat : C.Sat env k m m') :
    C.Sat env k (handling handles m) (handling handles m') := by
  refine .recover (.bind sat fun _ _ => .ok) fun f raised => ?_
  have := (Known.told (k := k) (a := f)).thrownValue
  exact .ite (fun _ => .ok) fun _ => .rethrow raised

/-- By induction on the course: what it knows grows with what it has seen. -/
theorem sat_hostCourse {grows : Prop} (may : grows) (seen : List Value) (course : HostCourse)
    [known : Known k seen] :
    C.SatLanding grows env k (hostCourse r seen course) (hostCourse w seen course) := by
  induction course generalizing seen k with
  | answer v => exact .of_sat .ok
  | gather elements => exact .newArray may _
  | throw_ v => exact .of_sat (.raise (by simp [Cause.kind]))
  | ask step next handles handler next_ih handler_ih =>
    have asked : C.Sat env k (hostStep r seen step) (hostStep w seen step) := sat_hostStep fits ..
    unfold hostCourse
    refine .bind (sat_handling asked) fun answer _ => ?_
    cases answer with
    | ok v => exact next_ih v _
    | error thrown => exact handler_ih thrown _

theorem sat_hostFunction (f : HostFunction) (receiver : Value) (args : List Value)
    [Known k receiver] [Known k args] :
    C.SatLanding ((Native.host f).grows = true) env k (hostFunction r f receiver args)
      (hostFunction w f receiver args) :=
  sat_hostCourse fits rfl ..

theorem sat_native (op : Native) (receiver : Value) (args : List Value) [given : Known k op]
    [Known k receiver] [Known k args] :
    C.SatLanding (op.grows = true) env k (native r op receiver args)
      (native w op receiver args) := by
  cases op with
  | array m => exact sat_arrayMethod fits ..
  | text m => exact sat_textMethod fits ..
  | number m => exact .of_sat (sat_numberMethod ..)
  | function m => exact .of_sat (sat_functionMethod fits ..)
  | object m => exact .of_sat (sat_objectMethod fits ..)
  | global f => exact sat_globalFunction fits ..
  | error prototype =>
    have : Known k prototype := ⟨given.subset⟩
    exact .of_sat (sat_makeInstance fits ..)
  | bound target receiver leading =>
    have : Known k receiver := given.less Set.subset_union_left
    have : Known k leading := given.less Set.subset_union_right
    exact .of_sat (fits.call ..)
  | host f => exact sat_hostFunction fits ..

end Fits

end Contract

end Scriptlet
