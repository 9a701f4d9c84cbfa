import Scriptlet.Proofs.Eval.Contract

/-!
Properties, conversions and operators satisfy every contract.

They change the state by steps on the heap, and run script code through calls only.
-/

namespace Scriptlet

namespace Contract

open Eval

variable {C : Contract} [lawful : C.Lawful] {r w : Recursion} {env : ScopeId} {k : Knowledge}

/-! ### Values of JSON texts -/

/-- A state with another heap, on which some data can be known. -/
structure Grown {α : Type} [Mentions α] (C : Contract) (s : State) (a : α) (h : Heap) : Prop where
  sound : C.sound { s with heap := h }
  kept : C.kept s { s with heap := h }
  known : Known (C.known h) a

omit lawful in
mutual

/-- Making the value of a text lets the arrays that there are stay. -/
theorem within_of_ofJson {h : Heap} (j : Json) (within : (h.ofJson j).2.Within) : h.Within := by
  match j with
  | .null | .bool _ | .int _ | .float _ | .str _ => exact within
  | .arr items => exact within_of_ofJsonItems items (Heap.Within.of_newArray within).1
  | .obj members => exact within_of_ofJsonMembers members within

theorem within_of_ofJsonItems {h : Heap} (items : List Json)
    (within : (h.ofJsonItems items).2.Within) :
    h.Within := by
  match items with
  | [] => exact within
  | j :: js => exact within_of_ofJson j (within_of_ofJsonItems js within)

theorem within_of_ofJsonMembers {h : Heap} (members : List (String × Json))
    (within : (h.ofJsonMembers members).2.Within) : h.Within := by
  match members with
  | [] => exact within
  | (_, j) :: js => exact within_of_ofJson j (within_of_ofJsonMembers js within)

end

mutual

theorem grown_ofJson {s : State} (sound : C.sound s) (j : Json)
    (within : C.bounded → (s.heap.ofJson j).2.Within) :
    C.Grown s (s.heap.ofJson j).1 (s.heap.ofJson j).2 := by
  match j with
  | .null | .bool _ | .int _ | .float _ | .str _ =>
    exact ⟨sound, lawful.refl s, ⟨Set.empty_subset _⟩⟩
  | .arr items =>
    obtain ⟨sound', kept, known⟩ := grown_ofJsonItems sound items fun bounded =>
      (Heap.Within.of_newArray (within bounded)).1
    obtain ⟨sound'', kept'⟩ := lawful.heap _ _ sound'
      (.newArray (s.heap.ofJsonItems items).1.toArray inferInstance) within
    exact ⟨sound'', lawful.trans _ _ _ kept kept', Known.array _⟩
  | .obj members =>
    obtain ⟨sound', kept, known⟩ := grown_ofJsonMembers sound members within
    obtain ⟨sound'', kept'⟩ := lawful.heap _ _ sound'
      (.newObject { props := .ofList (s.heap.ofJsonMembers members).1 } inferInstance) within
    refine ⟨sound'', lawful.trans _ _ _ kept kept', ⟨?_⟩⟩
    rintro _ rfl
    exact lawful.known_there _ _ (by simp [Heap.ofJson, Heap.newObject])

theorem grown_ofJsonItems {s : State} (sound : C.sound s) (items : List Json)
    (within : C.bounded → (s.heap.ofJsonItems items).2.Within) :
    C.Grown s (s.heap.ofJsonItems items).1 (s.heap.ofJsonItems items).2 := by
  match items with
  | [] => exact ⟨sound, lawful.refl s, Known.nil⟩
  | j :: js =>
    obtain ⟨sound', kept, first⟩ := grown_ofJson sound j fun bounded =>
      within_of_ofJsonItems js (within bounded)
    obtain ⟨sound'', kept', rest⟩ := grown_ofJsonItems sound' js within
    have first := first.more (lawful.known_kept _ _ kept')
    exact ⟨sound'', lawful.trans _ _ _ kept kept', Known.cons_iff.2 ⟨first, rest⟩⟩

theorem grown_ofJsonMembers {s : State} (sound : C.sound s) (members : List (String × Json))
    (within : C.bounded → (s.heap.ofJsonMembers members).2.Within) :
    C.Grown s (s.heap.ofJsonMembers members).1 (s.heap.ofJsonMembers members).2 := by
  match members with
  | [] => exact ⟨sound, lawful.refl s, Known.nil⟩
  | (key, j) :: js =>
    obtain ⟨sound', kept, first⟩ := grown_ofJson sound j fun bounded =>
      within_of_ofJsonMembers js (within bounded)
    obtain ⟨sound'', kept', rest⟩ := grown_ofJsonMembers sound' js within
    have first := first.more (lawful.known_kept _ _ kept')
    have entry := Known.pair_iff.2 ⟨Known.plain (a := key), first⟩
    exact ⟨sound'', lawful.trans _ _ _ kept kept', Known.cons_iff.2 ⟨entry, rest⟩⟩

end

theorem sat_fromJson {grows : Prop} (may : grows) (j : Json) :
    C.SatLanding grows env k (fromJson j) (fromJson j) := by
  constructor
  intro s sound _ _ lands
  obtain ⟨sound', kept, known⟩ := grown_ofJson sound j fun bounded => lands bounded may _ _ rfl
  exact .same _ ⟨sound', kept, trivial, known⟩

/-! ### Properties -/

theorem sat_functionPrototype (r : FunctionRef) :
    C.Sat env k (functionPrototype r) (functionPrototype r) := by
  unfold functionPrototype
  apply Sat.bind (.gets _)
  intro f _
  split
  · exact .ok
  · rename_i f
    split
    · rename_i v found
      have : Known (k.plus (some f)) v := .of_some found
      exact .ok
    · refine .ite (fun _ => .ok) ?_
      intro _
      refine .bind (.newObject _) fun o _ => ?_
      exact .bind (.setFunction r fun props => props.insert "prototype" (.object o)) fun _ _ => .ok

theorem sat_ownOrShared (v : Value) (key : String) :
    C.Sat env k (ownOrShared v key) (ownOrShared v key) := by
  refine @Sat.gets C lawful env k _ _ _ fun s => ?_
  split
  · rename_i found there
    exact .of_some there
  · infer_instance

theorem sat_getProperty (v : Value) (key : String) :
    C.Sat env k (getProperty v key) (getProperty v key) := by
  have shared : C.Sat env k (ownOrShared v key) (ownOrShared v key) := sat_ownOrShared v key
  cases v with
  | undefined => exact .typeFault _
  | null => exact .typeFault _
  | function r => exact .ite (fun _ => sat_functionPrototype r) fun _ => shared
  | _ => exact shared

omit lawful in
instance known_resize (n : Nat) (xs : Array Value) [Known k xs] : Known k (resize n xs) := by
  unfold resize
  infer_instance

omit lawful in
theorem size_resize (n : Nat) (xs : Array Value) : (resize n xs).size = n := by
  unfold resize
  split
  · simp only [Array.size_append, Array.size_replicate]
    omega
  · simp only [Array.size_shrink]
    omega

omit lawful in
theorem le_of_lengthOf? {x : Float} {n : Nat} (some : lengthOf? x = some n) :
    n ≤ Value.maxArrayLength := by
  unfold lengthOf? at some
  split at some
  · cases some
  · simp only at some
    split at some
    · cases some
      assumption
    · cases some

theorem sat_setElement (r : ArrayRef) (i : Nat) (v : Value) [Known k v] :
    C.Sat env k (setElement r i v) (setElement r i v) := by
  unfold setElement
  refine .bind (.gets _) fun size _ => .ite (fun _ => ?_) fun _ =>
    .ite (fun short => ?_) fun _ => ?_
  · exact .setArray r _ fun _ xs sized => by simpa using sized
  · exact .setArray r _ fun _ xs _ => by
      simpa [size_resize] using Nat.succ_le_of_lt short
  · exact .rangeFault _

theorem sat_setProperty (v : Value) (key : String) (value : Value) [Known k value] :
    C.Sat env k (setProperty v key value) (setProperty v key value) := by
  cases v with
  | undefined => exact .typeFault _
  | null => exact .typeFault _
  | object r => exact .setObject r fun props => props.insert key value
  | function r => exact .setFunction r fun props => props.insert key value
  | array r =>
    refine .ite (fun _ => .bind (.gets _) fun length _ => ?_) fun _ => ?_
    · split
      · rename_i n some
        exact .setArray r _ fun _ xs _ => (size_resize n xs).trans_le (le_of_lengthOf? some)
      · exact .rangeFault _
    · split
      · exact sat_setElement ..
      · exact .ok
  | _ => exact .ok

theorem sat_deleteProperty (v : Value) (key : String) :
    C.Sat env k (deleteProperty v key) (deleteProperty v key) := by
  cases v with
  | undefined => exact .typeFault _
  | null => exact .typeFault _
  | object r => exact .bind (.setObject r fun props => props.erase key) fun _ _ => .ok
  | function r => exact .bind (.setFunction r fun props => props.erase key) fun _ _ => .ok
  | array r =>
    unfold deleteProperty
    simp only
    split
    · exact .bind (.setArray r _ fun _ xs sized => by simpa using sized) fun _ _ => .ok
    · exact .bind (.ok) fun _ _ => .ok
  | _ => exact .ok

theorem sat_hasProperty (v : Value) (key : String) :
    C.Sat env k (hasProperty v key) (hasProperty v key) := by
  unfold hasProperty
  apply Sat.bind (.gets _)
  intro h _
  cases v with
  | object => exact .ok
  | array => exact .ok
  | function => exact .ok
  | _ => exact .typeFault _

omit lawful in
/-- How many values a value may spread into. -/
def Spreads (v : Value) (n : Nat) : Prop :=
  match v with
  | .string s => n = s.length
  | _ => n ≤ Value.maxArrayLength

theorem sat_iterate (v : Value) :
    C.Sat env k (iterate v) (iterate v) fun items => C.bounded → Spreads v items.length := by
  cases v with
  | array r => exact .reads _ fun s within bounded => (within bounded).elements r
  | string s => exact .pure fun _ => by simp [Spreads, String.length_toList]
  | _ => exact .bind (.gets _) fun _ _ => .typeFault _

omit lawful in
instance known_errorPrototype (s : State) (name : String) [Known k s] :
    Known k (errorPrototype? s name) := by
  unfold errorPrototype?
  split
  · rename_i r _ _
    cases there : s.heap.function? r with
    | none => exact .none
    | some f =>
      have made : Known k f := .of_some there
      split
      · rename_i p found
        rw [Option.bind_some] at found
        have : Known k (Value.object p) := .of_some found
        exact Known.some_iff.2 ⟨this.subset⟩
      · exact .none
  · exact .none

theorem sat_makeError (name message : String) :
    C.Sat env k (makeError name message) (makeError name message) :=
  .bind (.gets _) fun _ _ => .bind (.newObject _) fun _ _ => .ok

theorem sat_errorValue (f : Fault) [known : Known k f] :
    C.Sat env k (errorValue f) (errorValue f) := by
  unfold errorValue
  split
  · rename_i v thrown
    have : Known k v := known.less (congrArg Mentions.mentions thrown).symm.subset
    exact .ok
  · exact .bind (.gets _) fun _ _ => sat_makeError ..

/-! ### Conversions -/

section Fits

variable (fits : C.Fits r w)
include fits

theorem sat_askMethods (v : Value) (names : List String) [Known k v] :
    C.Sat env k (askMethods r v names) (askMethods w v names) := by
  induction names generalizing k with
  | nil => exact .gets _
  | cons name rest ih =>
    refine .bind (sat_getProperty v name) fun method _ => .ite (fun _ => ?_) fun _ => ih
    exact .bind (fits.call ..) fun result _ => .ite (fun _ => ih) fun _ => .ok

theorem sat_toPrimitive (preference : Preference) (v : Value) [Known k v] :
    C.Sat env k (toPrimitive r preference v) (toPrimitive w preference v) := by
  cases v with
  | object => exact sat_askMethods fits ..
  | function => exact sat_askMethods fits ..
  | array => exact .gets _
  | _ => exact .ok

theorem sat_toText (v : Value) [Known k v] : C.Sat env k (toText r v) (toText w v) := by
  unfold toText
  cases v with
  | object => exact .bind (sat_toPrimitive fits ..) fun _ _ => .gets _
  | function => exact .bind (sat_toPrimitive fits ..) fun _ _ => .gets _
  | _ => exact .bind .ok fun _ _ => .gets _

theorem sat_toNumber (v : Value) [Known k v] : C.Sat env k (toNumber r v) (toNumber w v) := by
  unfold toNumber
  cases v with
  | object => exact .bind (sat_toPrimitive fits ..) fun _ _ => .gets _
  | function => exact .bind (sat_toPrimitive fits ..) fun _ _ => .gets _
  | _ => exact .bind .ok fun _ _ => .gets _

theorem sat_toKey (v : Value) [Known k v] : C.Sat env k (toKey r v) (toKey w v) :=
  sat_toText fits v

/-! ### Operators -/

omit fits in
theorem sat_addPrimitives (a b : Value) :
    C.Sat env k (addPrimitives a b) (addPrimitives a b) := by
  have append {k : Knowledge} (s t : String) : C.Sat env k (appendTexts s t) (appendTexts s t) :=
    .ite (fun _ => .rangeFault _) fun _ => .ok
  apply Sat.bind (.gets _)
  intro h _
  split
  · exact append ..
  · exact append ..
  · exact .ok

theorem sat_arith (op : ArithOp) (left right : Value) [Known k left] [Known k right] :
    C.Sat env k (arith r op left right) (arith w op left right) := by
  cases op with
  | add =>
    exact .bind (sat_toPrimitive fits ..) fun a _ => .bind (sat_toPrimitive fits ..) fun b _ =>
      sat_addPrimitives a b
  | _ =>
    exact .bind (sat_toNumber fits _) fun _ _ => .bind (sat_toNumber fits _) fun _ _ => .ok

theorem sat_less? (left right : Value) [Known k left] [Known k right] :
    C.Sat env k (less? r left right) (less? w left right) :=
  .bind (sat_toPrimitive fits ..) fun _ _ => .bind (sat_toPrimitive fits ..) fun _ _ => .gets _

theorem sat_looseEquals (a b : Value) [Known k a] [Known k b] :
    C.Sat env k (looseEquals r a b) (looseEquals w a b) := by
  refine .ite (fun _ => ?_) fun _ => .ite (fun _ => ?_) fun _ => .ok
  · exact .bind (sat_toPrimitive fits ..) fun _ _ => .ok
  · exact .bind (sat_toPrimitive fits ..) fun _ _ => .ok

omit fits in
theorem sat_instanceOf (v constructor : Value) :
    C.Sat env k (instanceOf v constructor) (instanceOf v constructor) := by
  cases constructor with
  | function f =>
    apply Sat.bind (sat_functionPrototype f)
    intro p _
    split
    · exact .gets _
    · exact .ok
  | _ => exact .typeFault _

theorem sat_binary (op : BinaryOp) (left right : Value) [Known k left] [Known k right] :
    C.Sat env k (binary r op left right) (binary w op left right) := by
  cases op with
  | arith op => exact sat_arith fits ..
  | equal => exact .bind (sat_looseEquals fits ..) fun _ _ => .ok
  | notEqual => exact .bind (sat_looseEquals fits ..) fun _ _ => .ok
  | strictEqual => exact .ok
  | strictNotEqual => exact .ok
  | less => exact .bind (sat_less? fits ..) fun _ _ => .ok
  | greater => exact .bind (sat_less? fits ..) fun _ _ => .ok
  | lessEqual => exact .bind (sat_less? fits ..) fun _ _ => .ok
  | greaterEqual => exact .bind (sat_less? fits ..) fun _ _ => .ok
  | in_ =>
    exact .bind (sat_toKey fits _) fun _ _ => .bind (sat_hasProperty ..) fun _ _ => .ok
  | instanceOf => exact .bind (sat_instanceOf ..) fun _ _ => .ok

theorem sat_unary (op : UnaryOp) (v : Value) [Known k v] :
    C.Sat env k (unary r op v) (unary w op v) := by
  cases op with
  | minus => exact .bind (sat_toNumber fits _) fun _ _ => .ok
  | plus => exact .bind (sat_toNumber fits _) fun _ _ => .ok
  | bitNot => exact .bind (sat_toNumber fits _) fun _ _ => .ok
  | _ => exact .ok

end Fits

end Contract

end Scriptlet
