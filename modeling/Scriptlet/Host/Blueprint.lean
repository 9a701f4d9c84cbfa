import Scriptlet.Value.Basic

/-!
Values as a host writes them down, before they have a place on a heap.
-/

namespace Scriptlet

/-- A description of a value. Each container in it stands for a fresh one. -/
inductive Blueprint where
  | undefined
  | null
  | boolean (value : Bool)
  | number (value : Float)
  | string (value : String)
  | array (items : List Blueprint)
  | object (entries : List (String × Blueprint))
  /-- An object that inherits from what the second blueprint describes, if that is an object. -/
  | heir (entries : List (String × Blueprint)) (parent : Blueprint)
  /-- A function that the host lends. -/
  | lent (name : String) (f : HostFunction)
  /-- A function without parameters, made in a scope of the realm zero. -/
  | closure (name : String) (scope : ScopeId) (props : List (String × Blueprint))
  /-- A value that there is already. -/
  | existing (value : Value)
  deriving Inhabited

namespace Blueprint

/-- A function declaration that does nothing. -/
def emptyFunction (name : String) : Function where
  kind := .declaration
  name := some ⟨name, default⟩
  params := []
  body := .block ⟨[], default⟩
  span := default

mutual

/-- Builds a value on the heap. -/
def build : Blueprint → StateM Heap Value
  | .undefined => return .undefined
  | .null => return .null
  | .boolean b => return .boolean b
  | .number x => return .number x
  | .string s => return .string s
  | .array items => do
    let vs ← buildItems items
    return .array (← modifyGet (·.newArray vs.toArray))
  | .object entries => do
    let props ← buildEntries entries
    return .object (← modifyGet (·.newObject { props := .ofList props }))
  | .heir entries parent => do
    let props ← buildEntries entries
    let prototype := match ← build parent with
      | .object p => some p
      | _ => none
    return .object (← modifyGet (·.newObject { props := .ofList props, prototype := prototype }))
  | .lent name f =>
    return .function (← modifyGet (·.newFunction
      { name := name, callable := .native f.arity (.host f) }))
  | .closure name scope entries => do
    let props ← buildEntries entries
    return .function (← modifyGet (·.newFunction
      { name := name, callable := .closure (emptyFunction name) (.slot scope) 0,
        props := .ofList props }))
  | .existing v => return v

def buildItems : List Blueprint → StateM Heap (List Value)
  | [] => return []
  | b :: rest => do
    let v ← build b
    return v :: (← buildItems rest)

def buildEntries : List (String × Blueprint) → StateM Heap (List (String × Value))
  | [] => return []
  | (k, b) :: rest => do
    let v ← build b
    return (k, v) :: (← buildEntries rest)

end

end Blueprint

end Scriptlet
