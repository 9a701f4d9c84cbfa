import Mathlib.Data.List.Forall2
import Scriptlet.Proofs.Value.Conversion

/-!
JSON values and the values that they are read into.

Reading a JSON value makes containers of their own for all its parts, and writing a value follows
its containers wherever they are shared. A value shows a JSON value if the two agree in all parts.
Main statement: what was read is written as it was, and what was written without loss is read as a
value that is equal in structure.
-/

namespace Scriptlet

open Relation

namespace Json

/-- The number that a JSON number stands for. -/
def number? : Json → Option Float
  | .int n => some (Float.ofInt n)
  | .float x => some x
  | _ => none

/-- A JSON number and a number that are converted to each other. -/
structure Denotes (n : Json) (x : Float) : Prop where
  read : n.number? = some x
  written : ofNumber x = n

/-- A JSON value whose numbers come back as they were, and whose objects have every key once. -/
inductive Faithful : Json → Prop where
  | null : Faithful .null
  | bool (b : Bool) : Faithful (.bool b)
  | number {n : Json} {x : Float} : n.Denotes x → Faithful n
  | str (s : String) : Faithful (.str s)
  | arr {items : List Json} : (∀ j ∈ items, Faithful j) → Faithful (.arr items)
  | obj {members : List (String × Json)} : (members.map (·.1)).Nodup →
      (∀ m ∈ members, Faithful m.2) → Faithful (.obj members)

variable {items : List Json} {members : List (String × Json)} {n : Json} {x : Float}

theorem Faithful.item (faithful : (Json.arr items).Faithful) : ∀ j ∈ items, j.Faithful := by
  cases faithful with
  | number denotes => cases denotes.read
  | arr each => exact each

theorem Faithful.keys (faithful : (Json.obj members).Faithful) : (members.map (·.1)).Nodup := by
  cases faithful with
  | number denotes => cases denotes.read
  | obj keys => exact keys

theorem Faithful.member (faithful : (Json.obj members).Faithful) : ∀ m ∈ members, m.2.Faithful := by
  cases faithful with
  | number denotes => cases denotes.read
  | obj _ each => exact each

theorem Faithful.denotes (faithful : n.Faithful) (read : n.number? = some x) : n.Denotes x := by
  cases faithful with
  | number denotes =>
    cases read.symm.trans denotes.read
    exact denotes
  | _ => cases read

end Json

namespace Heap

variable {h h' h'' : Heap} {v w : Value} {j : Json} {r : ArrayRef} {o : ObjectRef}

/-! ### Values that show JSON values -/

/-- A value that agrees with a JSON value in all parts. -/
inductive Shows (h : Heap) : Value → Json → Prop where
  | null : Shows h .null .null
  | boolean (b : Bool) : Shows h (.boolean b) (.bool b)
  | number {x : Float} {n : Json} : n.number? = some x → Shows h (.number x) n
  | string (s : String) : Shows h (.string s) (.str s)
  | array {r : ArrayRef} {items : List Json} : (h.elements r).toList.length = items.length →
      (∀ p ∈ (h.elements r).toList.zip items, Shows h p.1 p.2) → Shows h (.array r) (.arr items)
  | object {o : ObjectRef} {members : List (String × Json)} : (h.object o).prototype = none →
      (h.object o).props.entries.map (·.1) = members.map (·.1) →
      (∀ p ∈ (h.object o).props.entries.zip members, Shows h p.1.2 p.2.2) →
      Shows h (.object o) (.obj members)

section Pairs

variable {α β γ : Type} {xs : List α} {ys : List β} {zs : List γ} {f : α → Except Circular β}
  {R : α → β → Prop} {es : List (String × α)} {ms : List (String × β)}

/-- Lists that agree with the same list agree with each other. -/
theorem forall₂_of_common {S : γ → β → Prop} (first : List.Forall₂ R xs ys)
    (second : List.Forall₂ S zs ys) :
    List.Forall₂ (fun x z => ∃ y, R x y ∧ S z y) xs zs := by
  induction first generalizing zs with
  | nil =>
    cases second
    exact .nil
  | cons here _ ih =>
    cases second with
    | cons there rest => exact .cons ⟨_, here, there⟩ (ih rest)

theorem mapM_eq_ok (each : List.Forall₂ (fun x y => f x = .ok y) xs ys) : xs.mapM f = .ok ys := by
  induction each with
  | nil => rfl
  | cons first _ ih =>
    rw [List.mapM_cons, first, ih]
    rfl

theorem forall₂_entries_iff : List.Forall₂ (fun e m => e.1 = m.1 ∧ R e.2 m.2) es ms ↔
    es.map (·.1) = ms.map (·.1) ∧ ∀ p ∈ es.zip ms, R p.1.2 p.2.2 := by
  induction es generalizing ms with
  | nil => cases ms <;> simp
  | cons e es ih =>
    cases ms with
    | nil => simp
    | cons m ms =>
      simp only [List.forall₂_cons, ih, List.map_cons, List.cons.injEq, List.zip_cons_cons,
        List.forall_mem_cons]
      tauto

end Pairs

theorem shows_array_iff {items : List Json} :
    h.Shows (.array r) (.arr items) ↔ List.Forall₂ h.Shows (h.elements r).toList items := by
  rw [List.forall₂_iff_zip]
  constructor
  · intro shows_
    cases shows_ with
    | array length each => exact ⟨length, each _⟩
  · rintro ⟨length, each⟩
    exact .array length fun p member => each member

theorem shows_object_iff {members : List (String × Json)} :
    h.Shows (.object o) (.obj members) ↔ (h.object o).prototype = none ∧
      List.Forall₂ (fun e m => e.1 = m.1 ∧ h.Shows e.2 m.2) (h.object o).props.entries members := by
  rw [forall₂_entries_iff]
  constructor
  · intro shows_
    cases shows_ with
    | object none keys each => exact ⟨none, keys, each⟩
  · rintro ⟨none, keys, each⟩
    exact .object none keys each

/-! ### Writing -/

variable {made : Value → Except Circular (Option Json)}

theorem jsonGather_array {items : List Json}
    (each : List.Forall₂ (fun v j => made v = .ok (some j)) (h.elements r).toList items) :
    h.jsonGather (.array r) made = .ok (some (.arr items)) := by
  have written : (h.elements r).toList.mapM made = .ok (items.map some) :=
    mapM_eq_ok (List.forall₂_map_right_iff.2 each)
  have kept : (items.map some).map (·.getD .null) = items := by
    rw [List.map_map]
    exact List.map_id items
  rw [jsonGather, written]
  exact congrArg (fun items => Except.ok (some (Json.arr items))) kept

theorem jsonGather_object {members : List (String × Json)}
    (each : List.Forall₂ (fun e m => e.1 = m.1 ∧ made e.2 = .ok (some m.2))
      (h.object o).props.entries members) :
    h.jsonGather (.object o) made = .ok (some (.obj members)) := by
  have written : (h.object o).props.entries.mapM (jsonMember made) = .ok (members.map some) := by
    refine mapM_eq_ok (List.forall₂_map_right_iff.2 (each.imp ?_))
    rintro ⟨k, v⟩ ⟨k', j⟩ ⟨rfl, written⟩
    simp only [jsonMember, written]
    rfl
  have kept : (members.map some).filterMap id = members := by simp
  rw [jsonGather, written]
  exact congrArg (fun members => Except.ok (some (Json.obj members))) kept

/-- What a value shows is what it is written as, unless a number is lost. -/
theorem Shows.json? (shown : h.Shows v j) (faithful : j.Faithful) : h.json? v = .ok (some j) := by
  induction shown with
  | null | boolean | string => rfl
  | number read => exact congrArg (Except.ok ∘ some) (faithful.denotes read).written
  | @array r items length each ih =>
    rw [json?_eq_gather (c := .array r) rfl]
    refine jsonGather_array (List.forall₂_iff_zip.2 ⟨length, fun member => ?_⟩)
    exact ih _ member (faithful.item _ (List.of_mem_zip member).2)
  | @object o members none keys each ih =>
    rw [json?_eq_gather (c := .object o) rfl]
    refine jsonGather_object ((forall₂_entries_iff (R := fun v j => h.json? v = .ok (some j))).2
      ⟨keys, fun p member => ?_⟩)
    exact ih p member (faithful.member _ (List.of_mem_zip member).2)

/-! ### Reading -/

/-- The containers of a heap are the first ones of another heap. -/
structure StartOf (h h' : Heap) : Prop where
  arrays : h.arrays.toList <+: h'.arrays.toList
  objects : h.objects.toList <+: h'.objects.toList

namespace StartOf

theorem refl (h : Heap) : h.StartOf h :=
  ⟨List.prefix_rfl, List.prefix_rfl⟩

theorem trans (first : h.StartOf h') (second : h'.StartOf h'') : h.StartOf h'' :=
  ⟨first.arrays.trans second.arrays, first.objects.trans second.objects⟩

theorem newArray (h : Heap) (elements : Array Value) : h.StartOf (h.newArray elements).2 := by
  refine ⟨?_, List.prefix_rfl⟩
  simp [Heap.newArray]

theorem newObject (h : Heap) (o : Object) : h.StartOf (h.newObject o).2 := by
  refine ⟨List.prefix_rfl, ?_⟩
  simp [Heap.newObject]

/-- A new array keeps its elements. -/
theorem elements_newArray {elements : Array Value} (later : (h.newArray elements).2.StartOf h') :
    h'.elements ⟨h.arrays.size⟩ = elements := by
  obtain ⟨more, arrays⟩ := later.arrays
  have there : h'.arrays.toList[h.arrays.size]? = some elements := by
    rw [← arrays]
    simp [Heap.newArray]
  rw [Array.getElem?_toList] at there
  simp [Heap.elements, there]

/-- A new object keeps its properties. -/
theorem object_newObject {new : Object} (later : (h.newObject new).2.StartOf h') :
    h'.object ⟨h.objects.size⟩ = new := by
  obtain ⟨more, objects⟩ := later.objects
  have there : h'.objects.toList[h.objects.size]? = some new := by
    rw [← objects]
    simp [Heap.newObject]
  rw [Array.getElem?_toList] at there
  simp [Heap.object, there]

end StartOf

mutual

theorem startOf_ofJson (h : Heap) (j : Json) : h.StartOf (h.ofJson j).2 := by
  match j with
  | .null | .bool _ | .int _ | .float _ | .str _ => exact .refl h
  | .arr items => exact (startOf_ofJsonItems h items).trans (.newArray ..)
  | .obj members => exact (startOf_ofJsonMembers h members).trans (.newObject ..)

theorem startOf_ofJsonItems (h : Heap) (items : List Json) : h.StartOf (h.ofJsonItems items).2 := by
  match items with
  | [] => exact .refl h
  | j :: js => exact (startOf_ofJson h j).trans (startOf_ofJsonItems _ js)

theorem startOf_ofJsonMembers (h : Heap) (members : List (String × Json)) :
    h.StartOf (h.ofJsonMembers members).2 := by
  match members with
  | [] => exact .refl h
  | (_, j) :: rest => exact (startOf_ofJson h j).trans (startOf_ofJsonMembers _ rest)

end

mutual

/-- What was read shows what it was read from, also when there are more containers later. -/
theorem shows_ofJson (h : Heap) (j : Json) (faithful : j.Faithful)
    (later : (h.ofJson j).2.StartOf h') : h'.Shows (h.ofJson j).1 j := by
  match j with
  | .null => exact .null
  | .bool b => exact .boolean b
  | .int n => exact .number rfl
  | .float x => exact .number rfl
  | .str s => exact .string s
  | .arr items =>
    have each := shows_ofJsonItems h items faithful.item ((StartOf.newArray ..).trans later)
    refine shows_array_iff.2 ?_
    rw [StartOf.elements_newArray later]
    exact each
  | .obj members =>
    have each := shows_ofJsonMembers h members faithful.member ((StartOf.newObject ..).trans later)
    have keys : ((h.ofJsonMembers members).1.map (·.1)).Nodup := by
      rw [(forall₂_entries_iff.1 each).1]
      exact faithful.keys
    refine shows_object_iff.2 ?_
    rw [StartOf.object_newObject later, Table.entries_ofList keys]
    exact ⟨rfl, each⟩

theorem shows_ofJsonItems (h : Heap) (items : List Json) (faithful : ∀ j ∈ items, j.Faithful)
    (later : (h.ofJsonItems items).2.StartOf h') :
    List.Forall₂ h'.Shows (h.ofJsonItems items).1 items := by
  match items with
  | [] => exact .nil
  | j :: js =>
    have rest := List.forall_mem_cons.1 faithful
    exact .cons (shows_ofJson h j rest.1 ((startOf_ofJsonItems _ js).trans later))
      (shows_ofJsonItems _ js rest.2 later)

theorem shows_ofJsonMembers (h : Heap) (members : List (String × Json))
    (faithful : ∀ m ∈ members, m.2.Faithful) (later : (h.ofJsonMembers members).2.StartOf h') :
    List.Forall₂ (fun e m => e.1 = m.1 ∧ h'.Shows e.2 m.2) (h.ofJsonMembers members).1 members := by
  match members with
  | [] => exact .nil
  | (k, j) :: rest =>
    have each := List.forall_mem_cons.1 faithful
    exact .cons ⟨rfl, shows_ofJson h j each.1 ((startOf_ofJsonMembers _ rest).trans later)⟩
      (shows_ofJsonMembers _ rest each.2 later)

end

/-! ### Values that JSON can express -/

/-- One value is in another one directly. -/
def Contains (h : Heap) (v w : Value) : Prop :=
  ∃ c, v.container? = some c ∧ w ∈ h.held c

/-- A value of a kind that JSON has, whatever is in it: a number that is kept, and no object that
inherits from another one. -/
def Expressible (h : Heap) : Value → Prop
  | .null | .boolean _ | .string _ | .array _ => True
  | .number x => ∃ n : Json, n.Denotes x
  | .object o => (h.object o).prototype = none
  | .undefined | .function _ => False

/-- Values on two heaps that are equal in structure: equal primitives, arrays with equal elements,
and objects that inherit from none, with the same keys in the same order and equal values. -/
inductive Alike (h h' : Heap) : Value → Value → Prop where
  | null : Alike h h' .null .null
  | boolean (b : Bool) : Alike h h' (.boolean b) (.boolean b)
  | number (x : Float) : Alike h h' (.number x) (.number x)
  | string (s : String) : Alike h h' (.string s) (.string s)
  | array {r r' : ArrayRef} : (h.elements r).size = (h'.elements r').size →
      (∀ p ∈ (h.elements r).toList.zip (h'.elements r').toList, Alike h h' p.1 p.2) →
      Alike h h' (.array r) (.array r')
  | object {o o' : ObjectRef} : (h.object o).prototype = none → (h'.object o').prototype = none →
      (h.object o).props.keys = (h'.object o').props.keys →
      (∀ p ∈ (h.object o).props.entries.zip (h'.object o').props.entries, Alike h h' p.1.2 p.2.2) →
      Alike h h' (.object o) (.object o')

/-- Values that show the same JSON value are equal in structure. -/
theorem Shows.alike (shown : h.Shows v j) (shown' : h'.Shows w j) : h.Alike h' v w := by
  induction shown generalizing w with
  | null =>
    cases shown' with
    | null => exact .null
    | number read => cases read
  | boolean b =>
    cases shown' with
    | boolean => exact .boolean b
    | number read => cases read
  | @number x n read =>
    cases shown' with
    | number read' =>
      cases read.symm.trans read'
      exact .number x
    | _ => cases read
  | string s =>
    cases shown' with
    | string => exact .string s
    | number read => cases read
  | @array r items length each ih =>
    cases shown' with
    | number read => cases read
    | @array r' _ length' each' =>
      have first := List.forall₂_iff_zip.2 ⟨length, fun {v j} member w => ih (v, j) member (w := w)⟩
      have second := List.forall₂_iff_zip.2 ⟨length', fun {v j} member => each' (v, j) member⟩
      have both := List.forall₂_iff_zip.1 (forall₂_of_common first second)
      refine .array (by simpa using both.1) fun p member => ?_
      obtain ⟨j, alike, shown⟩ := both.2 member
      exact alike p.2 shown
  | @object o members none keys each ih =>
    cases shown' with
    | number read => cases read
    | @object o' _ none' keys' each' =>
      have first := (forall₂_entries_iff (R := fun v j => ∀ w, h'.Shows w j → h.Alike h' v w)).2
        ⟨keys, fun p member _ => ih p member⟩
      have second := forall₂_entries_iff.2 ⟨keys', each'⟩
      refine .object none none' (keys.trans keys'.symm) fun p member => ?_
      obtain ⟨m, ⟨-, alike⟩, -, shown⟩ :=
        (List.forall₂_iff_zip.1 (forall₂_of_common first second)).2 member
      exact alike _ shown

/-- What is written of a value is a JSON value that it shows. -/
structure Written (h : Heap) (out : Except Circular (Option Json)) (v : Value) (j : Json) :
    Prop where
  answer : out = .ok (some j)
  shown : h.Shows v j
  faithful : j.Faithful

theorem written_array {f : Value → Json}
    (each : ∀ w ∈ (h.elements r).toList, h.Written (made w) w (f w)) :
    ∃ j, h.Written (h.jsonGather (.array r) made) (.array r) j := by
  refine ⟨.arr ((h.elements r).toList.map f), jsonGather_array ?_, shows_array_iff.2 ?_, .arr ?_⟩
  · exact List.forall₂_map_right_iff.2 (List.forall₂_same.2 fun w member => (each w member).answer)
  · exact List.forall₂_map_right_iff.2 (List.forall₂_same.2 fun w member => (each w member).shown)
  · exact List.forall_mem_map.2 fun w member => (each w member).faithful

theorem written_object {f : Value → Json} (none : (h.object o).prototype = none)
    (each : ∀ e ∈ (h.object o).props.entries, h.Written (made e.2) e.2 (f e.2)) :
    ∃ j, h.Written (h.jsonGather (.object o) made) (.object o) j := by
  refine ⟨.obj ((h.object o).props.entries.map fun e => (e.1, f e.2)), jsonGather_object ?_,
    shows_object_iff.2 ⟨none, ?_⟩, .obj ?_ ?_⟩
  · exact List.forall₂_map_right_iff.2
      (List.forall₂_same.2 fun e member => ⟨rfl, (each e member).answer⟩)
  · exact List.forall₂_map_right_iff.2
      (List.forall₂_same.2 fun e member => ⟨rfl, (each e member).shown⟩)
  · simpa [Function.comp_def] using (h.object o).props.nodup
  · exact List.forall_mem_map.2 fun e member => (each e member).faithful

/-- A value that is written, and holds nothing that JSON cannot express, shows what it is written
as. -/
theorem written_of_run {path : List Container} {out : Except Circular (Option Json)}
    (run : h.jsonWalk.Run path v out) (written : out ≠ .error .circular)
    (expressible : ∀ w, ReflTransGen h.Contains v w → h.Expressible w) :
    ∃ j, h.Written out v j := by
  induction run with
  | @answer path v none =>
    have fits := expressible v .refl
    cases v with
    | undefined | function => exact fits.elim
    | null => exact ⟨.null, rfl, .null, .null⟩
    | boolean b => exact ⟨.bool b, rfl, .boolean b, .bool b⟩
    | number x =>
      obtain ⟨n, denotes⟩ := fits
      exact ⟨n, congrArg (Except.ok ∘ some) denotes.written, .number denotes.read, .number denotes⟩
    | string s => exact ⟨.str s, rfl, .string s, .str s⟩
    | array | object => exact absurd rfl written
  | @gather path v c made enters inside ih =>
    have is := h.jsonWalk.container_of_entered enters
    have each : ∀ w ∈ h.held c, ∃ j, h.Written (made w) w j := by
      intro w member
      refine ih w member (fun failed => written ?_) fun x reach => ?_
      · exact jsonGather_eq_error_iff.2 ⟨w, member, failed⟩
      · exact expressible x (.head ⟨c, is, member⟩ reach)
    choose! f each using each
    cases v with
    | array r =>
      cases is
      exact written_array each
    | object o =>
      cases is
      exact written_object (expressible _ .refl) fun e member =>
        each e.2 (List.mem_map_of_mem member)
    | _ => cases is

/-! ### Main statement -/

/-- What was read from JSON is written as the same JSON. A value without cycles that holds nothing
but what JSON can express is written, and what is read from that is equal to it in structure. -/
theorem json_ofJson (h : Heap) :
    (∀ j : Json, j.Faithful → (h.ofJson j).2.json (h.ofJson j).1 = .ok j) ∧
    ∀ v, ¬h.LeadsToCycle v → (∀ w, ReflTransGen h.Contains v w → h.Expressible w) →
      ∃ j, h.json v = .ok j ∧ ∀ h' : Heap, h.Alike (h'.ofJson j).2 v (h'.ofJson j).1 := by
  constructor
  · intro j faithful
    have shown := shows_ofJson h j faithful (.refl _)
    rw [json, shown.json? faithful]
    rfl
  · intro v acyclic expressible
    have written : h.json? v ≠ .error .circular :=
      fun failed => acyclic (json?_eq_error_iff.1 failed)
    obtain ⟨j, answer, shown, faithful⟩ := written_of_run (run_jsonWalk.2 rfl) written expressible
    refine ⟨j, ?_, fun h' => shown.alike (shows_ofJson h' j faithful (.refl _))⟩
    rw [json, answer]
    rfl

/-- An array that holds another one twice. -/
theorem json_ofJson_shared :
    let j : Json := .obj [("b", .arr [.int (-3), .float 1.5]), ("a", .null)]
    let h : Heap := { arrays := #[#[.number 1.5], #[.array ⟨0⟩, .array ⟨0⟩]] }
    j.Faithful ∧ (h.ofJson j).2.json (h.ofJson j).1 = .ok j ∧
      ¬h.LeadsToCycle (.array ⟨1⟩) ∧
        (∀ w, ReflTransGen h.Contains (.array ⟨1⟩) w → h.Expressible w) ∧
      h.json (.array ⟨1⟩) = .ok (.arr [.arr [.float 1.5], .arr [.float 1.5]]) ∧
      ∃ j, h.json (.array ⟨1⟩) = .ok j ∧
        ∀ h' : Heap, h.Alike (h'.ofJson j).2 (.array ⟨1⟩) (h'.ofJson j).1 := by
  intro j h
  have faithful : j.Faithful := by
    refine .obj (by decide) (List.forall_mem_cons.2 ⟨.arr ?_, List.forall_mem_singleton.2 .null⟩)
    exact List.forall_mem_cons.2
      ⟨.number ⟨rfl, rfl⟩, List.forall_mem_singleton.2 (.number ⟨rfl, rfl⟩)⟩
  have acyclic : ¬h.LeadsToCycle (.array ⟨1⟩) := by
    rw [← json?_eq_error_iff]
    exact fun failed => nomatch failed
  have expressible : ∀ w, ReflTransGen h.Contains (.array ⟨1⟩) w → h.Expressible w := by
    intro w reach
    have one_of : w = .array ⟨1⟩ ∨ w = .array ⟨0⟩ ∨ w = .number 1.5 := by
      induction reach with
      | refl => exact .inl rfl
      | tail _ next ih =>
        obtain ⟨c, is, member⟩ := next
        rcases ih with rfl | rfl | rfl
        · cases is
          exact .inr (.inl (by simpa [h, held, elements] using member))
        · cases is
          exact .inr (.inr (by simpa [h, held, elements] using member))
        · cases is
    rcases one_of with rfl | rfl | rfl
    · trivial
    · trivial
    · exact ⟨.float 1.5, rfl, rfl⟩
  exact ⟨faithful, (json_ofJson h).1 j faithful, acyclic, expressible, rfl,
    (json_ofJson h).2 _ acyclic expressible⟩

end Heap

end Scriptlet
