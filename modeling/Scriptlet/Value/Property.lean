import Scriptlet.Value.Basic

/-!
Reading properties without running script code.

Objects answer for their own properties first and then for those of the objects they inherit from,
the nearest first. Arrays and texts answer for indices and their length.
-/

namespace Scriptlet

/-- The largest index that a key can stand for. -/
def maxIndex : Nat := Nat.pow 2 64 - 1

/-- The index that a key spells in the one way an index is spelled: no sign, no leading zero. -/
def arrayIndex? (key : String) : Option Nat :=
  let cs := key.toList
  if cs.isEmpty || (cs.length > 1 && cs.head? == some '0') || !cs.all Char.isDigit then none
  else
    let n := cs.foldl (fun n c => 10 * n + (c.toNat - 48)) 0
    if n ≤ maxIndex then some n else none

/-- The key that spells an index. -/
def indexKey (i : Nat) : String :=
  toString i

namespace Heap

/-- An object followed by what it inherits from, at most `fuel` objects in all. -/
def chainFrom (h : Heap) : Nat → Option ObjectRef → List Object
  | 0, _ => []
  | _, none => []
  | fuel + 1, some r =>
    let o := h.object r
    o :: chainFrom h fuel o.prototype

/-- An object followed by what it inherits from, nearest first. -/
def chain (h : Heap) (r : ObjectRef) : List Object :=
  h.chainFrom h.objects.size (some r)

/-- The value of the nearest object of the chain that has the key. -/
def lookup? (h : Heap) (r : ObjectRef) (key : String) : Option Value :=
  (h.chain r).findSome? (·.props.get? key)

/-- Whether an object or one that it inherits from has the key. -/
def inherits (h : Heap) (r : ObjectRef) (key : String) : Bool :=
  (h.chain r).any (·.props.contains key)

/-- Whether `target` is among the objects that `r` inherits from, within `fuel` steps. -/
def descendsFrom (h : Heap) (target : ObjectRef) : Nat → ObjectRef → Bool
  | 0, _ => false
  | fuel + 1, r =>
    match (h.object r).prototype with
    | none => false
    | some p => p == target || descendsFrom h target fuel p

/-- A property of a value, if it has one of that name. -/
def get? (h : Heap) (v : Value) (key : String) : Option Value :=
  match v with
  | .object r => h.lookup? r key
  | .array r =>
    let xs := h.elements r
    if key = "length" then some (.number (Float.ofNat xs.size))
    else (arrayIndex? key).bind (xs[·]?)
  | .string s =>
    if key = "length" then some (.number (Float.ofNat s.length))
    else (arrayIndex? key).bind fun i => s.toList[i]?.map fun c => .string c.toString
  | .function r => (h.function? r).bind (·.get? key)
  | _ => none

/-- The keys of a value's own properties, in order. -/
def ownKeys (h : Heap) : Value → List String
  | .object r => (h.object r).props.keys
  | .array r => (List.range (h.elements r).size).map indexKey
  | .string s => (List.range s.length).map indexKey
  | .function r => ((h.function? r).map (·.props.keys)).getD []
  | _ => []

/-- Keys with those of `more` that are not among them yet. -/
def addKeys (keys more : List String) : List String :=
  more.foldl (fun ks k => if ks.contains k then ks else ks ++ [k]) keys

/-- The keys that a loop over a value visits: its own, then the inherited ones. -/
def enumerableKeys (h : Heap) (v : Value) : List String :=
  match v with
  | .object r => (h.chain r).foldl (fun ks o => addKeys ks o.props.keys) []
  | _ => h.ownKeys v

/-- The own properties of a value as entries. -/
def ownEntries (h : Heap) (v : Value) : List (String × Value) :=
  (h.ownKeys v).map fun k => (k, (h.get? v k).getD .undefined)

end Heap

end Scriptlet
