/-! Broken invariants. A fault ends the whole evaluation; no script can catch one. -/
namespace CallEngine

inductive Fault where
  | chainTooShort (depth : Nat)
  | noVariables
  | offsetOutOfRange (offset declared : Nat)
  | cannotGrow
  | undeclaredParameters
  | emptyStack
  | popOnEmptyStack
  | noScope
deriving DecidableEq, Inhabited, Repr

def Fault.message : Fault → String
  | chainTooShort depth => s!"scope depth {depth} exceeds the dynamic scope chain"
  | noVariables => "depth-zero access on a scope with no variables"
  | offsetOutOfRange offset declared =>
    s!"variable offset {offset} out of range for a scope with {declared} variables"
  | cannotGrow => "a scope allocated without variables cannot grow"
  | undeclaredParameters => "parameters must be declared as variables"
  | emptyStack => "frame stack is empty"
  | popOnEmptyStack => "FrameStack::pop() called on empty stack"
  | noScope => "dynamic scope stack is empty"

end CallEngine
