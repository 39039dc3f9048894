import CallEngine.Tree.Resolve
import CallEngine.View
/-! Compiled bodies, and how trees become them.

Code keeps what is decided once about a body: literals are constants, a missing branch or operand
is a constant nil, and the forms of closures and of jumps are data. Bodies of closure literals stay
trees. Trees that rescue, retry, define or send to super have no code. -/
namespace CallEngine

/-- Ways for a body to leave with a value. -/
inductive Exit where
  | doReturn | doBreak | doNext
deriving DecidableEq, Inhabited, Repr

inductive Code where
  | const (value : Value)
  | array (items : List Code)
  | self
  | localGet (offset depth : Nat)
  | localSet (offset depth : Nat) (value : Code)
  | globalGet (name : String)
  | globalSet (name : String) (value : Code)
  | seq (items : List Code)
  | branch (test yes no : Code)
  | binary (op : BinaryOp) (lhs rhs : Code)
  | send (receiver : Option Code) (name : String) (args : List Code)
      (block : BlockArg (Literal StaticId Node) Code)
  | bareCall (name : String)
  | yield (args : List Code)
  | closure (kind : ClosureKind) (literal : Literal StaticId Node)
  | methodRef (name : String)
  | leave (exit : Exit) (value : Code)
  | redo
  | loop (test body : Code)
  | raise (message : Code)
  | constant (name : String)
  | blockGiven

instance : Inhabited Code := ⟨.const .nil⟩

namespace Tree

mutual

/-- Fails with the label of the first node without code. -/
def lower : Node → Except String Code
  | nil => .ok (.const .nil)
  | bool value => .ok (.const (.bool value))
  | int value => .ok (.const (.int value))
  | str value => .ok (.const (.str value))
  | array items => do return .array (← lowerAll items)
  | self => .ok .self
  | localGet offset depth => .ok (.localGet offset depth)
  | localSet offset depth value => do return .localSet offset depth (← lower value)
  | globalGet name => .ok (.globalGet name)
  | globalSet name value => do return .globalSet name (← lower value)
  | seq items => do return .seq (← lowerAll items)
  | cond test yes no => do
    return .branch (← lower test) (← lower yes) (← lowerOperand no)
  | binary op lhs rhs => do return .binary op (← lower lhs) (← lower rhs)
  | call receiver name args block => do
    return .send (← lowerOption receiver) name (← lowerAll args) (← lowerBlock block)
  | bareCall name => .ok (.bareCall name)
  | yield args => do return .yield (← lowerAll args)
  | makeProc literal => .ok (.closure .proc literal)
  | makeLambda literal => .ok (.closure .lambda literal)
  | methodRef name => .ok (.methodRef name)
  | doReturn value => do return .leave .doReturn (← lowerOperand value)
  | doBreak value => do return .leave .doBreak (← lowerOperand value)
  | doNext value => do return .leave .doNext (← lowerOperand value)
  | redo => .ok .redo
  | loop test body => do return .loop (← lower test) (← lower body)
  | raise message => do return .raise (← lower message)
  | constant name => .ok (.constant name)
  | blockGiven => .ok .blockGiven
  | retry => .error "retry"
  | rescue .. => .error "rescue"
  | define .. => .error "def"
  | classBody _ _ isModule _ _ => .error (if isModule then "module" else "class")
  | superCall => .error "super"

def lowerAll : List Node → Except String (List Code)
  | [] => .ok []
  | item :: rest => do return (← lower item) :: (← lowerAll rest)

def lowerOption : Option Node → Except String (Option Code)
  | none => .ok none
  | some value => do return some (← lower value)

/-- An operand that is not there is nil. -/
def lowerOperand : Option Node → Except String Code
  | none => .ok (.const .nil)
  | some value => lower value

def lowerBlock : BlockArg (Literal StaticId Node) Node →
    Except String (BlockArg (Literal StaticId Node) Code)
  | .absent => .ok .absent
  | .literal literal => .ok (.literal literal)
  | .pass value => do return .pass (← lower value)

end

end Tree

end CallEngine
