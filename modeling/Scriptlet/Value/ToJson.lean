import Scriptlet.Json.Basic
import Scriptlet.Value.Text

/-!
Values to JSON and back.
-/

namespace Scriptlet

/-- The largest integer below which every integer is a number of its own. -/
def maxSafeInteger : Float := 9007199254740991.0

/-- A number as JSON: safe integers without a fraction, and null for what JSON cannot write. -/
def Json.ofNumber (x : Float) : Json :=
  match Number.Parts.ofFloat x with
  | .finite d =>
    if d.isInteger && x.abs ≤ maxSafeInteger then .int d.truncate else .float x
  | _ => .null

/-- A container that holds itself. -/
inductive Circular where
  | circular
  deriving DecidableEq, Repr

namespace Heap

/-- The JSON of a value inside the containers of `path`, of which there are at most `fuel` more.
Undefined and functions have none: they leave null in an array and nothing in an object. -/
def jsonWithin (h : Heap) : Nat → List Container → Value → Except Circular (Option Json)
  | _, _, .undefined | _, _, .function _ => .ok none
  | _, _, .null => .ok (some .null)
  | _, _, .boolean b => .ok (some (.bool b))
  | _, _, .number x => .ok (some (.ofNumber x))
  | _, _, .string s => .ok (some (.str s))
  | 0, _, .array _ | 0, _, .object _ => .error .circular
  | fuel + 1, path, .array r =>
    if path.contains (.array r) then .error .circular
    else do
      let items ← (h.elements r).toList.mapM fun v => jsonWithin h fuel (.array r :: path) v
      return some (.arr (items.map (·.getD .null)))
  | fuel + 1, path, .object r =>
    if path.contains (.object r) then .error .circular
    else do
      let members ← (h.object r).props.entries.mapM fun e =>
        return (← jsonWithin h fuel (.object r :: path) e.2).map (e.1, ·)
      return some (.obj (members.filterMap id))

/-- The JSON of a value, if it has one. -/
def json? (h : Heap) (v : Value) : Except Circular (Option Json) :=
  h.jsonWithin (h.arrays.size + h.objects.size + 1) [] v

/-- The JSON of a value; null for undefined and functions. -/
def json (h : Heap) (v : Value) : Except Circular Json :=
  return (← h.json? v).getD .null

mutual

/-- The value of a JSON text, in fresh containers. -/
def ofJson (h : Heap) : Json → Value × Heap
  | .null => (.null, h)
  | .bool b => (.boolean b, h)
  | .int n => (.number (Float.ofInt n), h)
  | .float x => (.number x, h)
  | .str s => (.string s, h)
  | .arr items =>
    let (vs, h) := ofJsonItems h items
    let (r, h) := h.newArray vs.toArray
    (.array r, h)
  | .obj members =>
    let (entries, h) := ofJsonMembers h members
    let (r, h) := h.newObject { props := .ofList entries }
    (.object r, h)

def ofJsonItems (h : Heap) : List Json → List Value × Heap
  | [] => ([], h)
  | j :: js =>
    let (v, h) := ofJson h j
    let (vs, h) := ofJsonItems h js
    (v :: vs, h)

def ofJsonMembers (h : Heap) : List (String × Json) → List (String × Value) × Heap
  | [] => ([], h)
  | (k, j) :: rest =>
    let (v, h) := ofJson h j
    let (entries, h) := ofJsonMembers h rest
    ((k, v) :: entries, h)

end

end Heap

end Scriptlet
