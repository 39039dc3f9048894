import CallEngine.Fault
import CallEngine.Tree
import CallEngine.Value
/-! Variables: what a scope declares, and the storage that each entry into it gets.

A static scope lists the names of a body's variables; names can be added but never move. Each
entry into the body allocates a cell for their values. An environment is the chain of cells that
a body sees, innermost first, so the cell `depth` scopes outwards is the entry at `depth`. -/
namespace CallEngine

abbrev StaticId := Nat

abbrev CellId := Nat

abbrev Env := List CellId

inductive ScopeKind where
  /-- A method body or top level; a search for a name ends here. -/
  | method
  /-- A closure body, which also sees the scopes around it. -/
  | closure
deriving DecidableEq, Inhabited, Repr

def ScopeKind.name : ScopeKind → String
  | method => "Local"
  | closure => "Block"

structure StaticScope where
  kind : ScopeKind := .method
  /-- The scopes around this one, innermost first. -/
  enclosing : List StaticId := []
  vars : List String := []
  /-- The first variables are the positional parameters. -/
  layout : Arity := .noArguments
deriving DecidableEq, Inhabited, Repr

namespace StaticScope

def size (scope : StaticScope) : Nat := scope.vars.length

def withLayout (scope : StaticScope) (layout : Arity) : Except Fault StaticScope :=
  if layout.required + layout.optional ≤ scope.size then .ok { scope with layout }
  else .error .undeclaredParameters

/-- A name that is declared already is not added again. -/
def declare (scope : StaticScope) (name : String) : StaticScope :=
  if scope.vars.contains name then scope
  else { scope with vars := scope.vars ++ [name] }

/-- How many leading variables are positional parameters. -/
def positional (scope : StaticScope) : Nat := scope.layout.required + scope.layout.optional

end StaticScope

structure Cell where
  scope : StaticId
  /-- Nothing if the scope declared no variable when it was entered. -/
  slots : Option (Array Value)
deriving DecidableEq, Inhabited

/-- Pads with nil up to `size`. -/
def padded (slots : Array Value) (size : Nat) : Array Value :=
  slots ++ Array.replicate (size - slots.size) .nil

/-- Puts `values` over the slots from `start` on; values that find no slot are dropped. -/
def overlay (slots : Array Value) (start : Nat) : List Value → Array Value
  | [] => slots
  | value :: rest => overlay (slots.setIfInBounds start value) (start + 1) rest

namespace Cell

/-- A scope without variables gets no storage. -/
def fresh (scope : StaticId) (size : Nat) : Cell :=
  ⟨scope, if size = 0 then none else some (Array.replicate size .nil)⟩

def change (cell : Cell) (f : Array Value → Array Value) : Cell :=
  match cell with
  | ⟨scope, some slots⟩ => ⟨scope, some (f slots)⟩
  | ⟨scope, none⟩ => ⟨scope, none⟩

end Cell

structure Memory where
  statics : Array StaticScope := #[]
  cells : Array Cell := #[]
deriving Inhabited

namespace Memory

def static (memory : Memory) (id : StaticId) : StaticScope := memory.statics.getD id default

def cell (memory : Memory) (id : CellId) : Cell := memory.cells.getD id default

def addStatic (memory : Memory) (scope : StaticScope) : StaticId × Memory :=
  (memory.statics.size, { memory with statics := memory.statics.push scope })

def declare (memory : Memory) (id : StaticId) (name : String) : Memory :=
  { memory with statics := memory.statics.modify id (·.declare name) }

/-- The address of `name` seen from the innermost of `scopes`, which is `depth` steps out. -/
def findFrom (memory : Memory) (name : String) : List StaticId → Nat → Option (Nat × Nat)
  | [], _ => none
  | id :: outer, depth =>
    match (memory.static id).vars.idxOf? name with
    | some offset => some (offset, depth)
    | none =>
      if (memory.static id).kind = .closure then memory.findFrom name outer (depth + 1) else none

/-- Offset and depth of the nearest declaration of `name`. -/
def find (memory : Memory) (id : StaticId) (name : String) : Option (Nat × Nat) :=
  memory.findFrom name (id :: (memory.static id).enclosing) 0

/-- How many variables the scope of a cell declares by now. -/
def declared (memory : Memory) (id : CellId) : Nat := (memory.static (memory.cell id).scope).size

/-- Enters a scope: a cell with every variable nil, in front of the environment around it. -/
def allocate (memory : Memory) (scope : StaticId) (parent : Env) : Env × Memory :=
  let cell := Cell.fresh scope (memory.static scope).size
  (memory.cells.size :: parent, { memory with cells := memory.cells.push cell })

def ancestor (env : Env) (depth : Nat) : Except Fault CellId :=
  match env[depth]? with
  | some id => .ok id
  | none => .error (.chainTooShort depth)

def slots (memory : Memory) (id : CellId) : Except Fault (Array Value) :=
  match (memory.cell id).slots with
  | some slots => .ok slots
  | none => .error .noVariables

/-- What a cell with storage holds for every variable that its scope declares by now. -/
def values (memory : Memory) (id : CellId) : List Value :=
  match (memory.cell id).slots with
  | some slots => (padded slots (memory.declared id)).toList
  | none => []

/-- A variable declared after its cell was allocated is nil until it is written. -/
def read (memory : Memory) (env : Env) (offset depth : Nat) : Except Fault Value := do
  let id ← ancestor env depth
  let slots ← memory.slots id
  match slots[offset]? with
  | some value => .ok value
  | none =>
    if offset < memory.declared id then .ok .nil
    else .error (.offsetOutOfRange offset (memory.declared id))

/-- The cell that a write reaches. -/
def writable (memory : Memory) (env : Env) (offset depth : Nat) : Except Fault CellId := do
  let id ← ancestor env depth
  let slots ← memory.slots id
  if offset < slots.size then .ok id
  else if offset < memory.declared id then .ok id
  else .error (.offsetOutOfRange offset (memory.declared id))

/-- Changes the slots of a cell that has storage. -/
def change (memory : Memory) (id : CellId) (f : Array Value → Array Value) : Memory :=
  { memory with cells := memory.cells.modify id (·.change f) }

/-- Stores a value; a cell that has no slot for it yet first gets one for every variable. -/
def put (memory : Memory) (id : CellId) (offset : Nat) (value : Value) : Memory :=
  let statics := memory.statics
  { memory with cells := memory.cells.modify id fun cell =>
      let scope := cell.scope
      cell.change fun slots =>
        if offset < slots.size then slots.setIfInBounds offset value
        else (padded slots (statics.getD scope default).size).setIfInBounds offset value }

def write (memory : Memory) (env : Env) (offset depth : Nat) (value : Value) :
    Except Fault Memory := do
  let id ← memory.writable env offset depth
  .ok (memory.put id offset value)

/-- The innermost cell, which must have storage. -/
def innermost (memory : Memory) (env : Env) : Except Fault CellId := do
  let id ← ancestor env 0
  let _ ← memory.slots id
  .ok id

/-- Without a value to store, the cell is not looked at. -/
def writeArguments (memory : Memory) (env : Env) (values : List Value) (count : Nat) :
    Except Fault Memory :=
  if count = 0 then .ok memory
  else do
    let id ← memory.innermost env
    .ok (memory.change id (overlay · 0 (values.take count)))

/-- The values of a cell's parameters, a list in the rest slot spread out again. -/
def cellArguments (memory : Memory) (id : CellId) : List Value :=
  let scope := memory.static (memory.cell id).scope
  match (memory.cell id).slots with
  | none => []
  | some slots =>
    let rest := match slots[scope.positional]? with
      | some (.array items) => if scope.layout.rest then items.toList else []
      | _ => []
    (slots.extract 0 scope.positional).toList ++ rest

/-- The parameters of the method that the environment belongs to. -/
def arguments (memory : Memory) : Env → List Value
  | [] => []
  | id :: outer =>
    if (memory.static (memory.cell id).scope).kind = .method then memory.cellArguments id
    else memory.arguments outer

/-- Gives slots to the variables that were declared since the cell was allocated. -/
def grow (memory : Memory) (env : Env) : Except Fault Memory := do
  let id ← ancestor env 0
  match (memory.cell id).slots with
  | some _ =>
    let declared := memory.declared id
    .ok (memory.change id (padded · declared))
  | none => if memory.declared id = 0 then .ok memory else .error .cannotGrow

/-- A copy of every cell of the chain. -/
def clone (memory : Memory) : Env → Env × Memory
  | [] => ([], memory)
  | id :: outer =>
    let (parent, copied) := memory.clone outer
    (copied.cells.size :: parent, { copied with cells := copied.cells.push (memory.cell id) })

def hasVariables (memory : Memory) (env : Env) : Bool :=
  match env with
  | [] => false
  | id :: _ => (memory.cell id).slots.isSome

end Memory

end CallEngine
