import CallEngine.Eval.Act
import CallEngine.Eval.Loop
import CallEngine.Eval.Operator
/-! Evaluation of trees. The recursion is on the tree; `bound` limits the iterations of each loop. -/
namespace CallEngine.Tree
open Eval

mutual

def evalWith (bound : Nat) (perform : Performer) : Node → Eval Value
  | nil => pure .nil
  | bool value => pure (.bool value)
  | int value => pure (.int value)
  | str value => pure (.str value)
  | array items => return .array (← evalAll bound perform items).toArray
  | self => currentSelf
  | localGet offset depth => do readVariable (← currentEnv) offset depth
  | localSet offset depth value => do
    let value ← evalWith bound perform value
    writeVariable (← currentEnv) offset depth value
    return value
  | globalGet name => global name
  | globalSet name value => do
    let value ← evalWith bound perform value
    setGlobal name value
    return value
  | seq items => evalLast bound perform .nil items
  | cond test yes no => do
    if (← evalWith bound perform test).isTruthy then evalWith bound perform yes
    else evalOperand bound perform no
  | binary op lhs rhs => do
    let left ← evalWith bound perform lhs
    let right ← evalWith bound perform rhs
    applyBinary op left right
  | call receiver name args block => do
    let (receiver, type) ← evalReceiver bound perform receiver
    let args ← evalAll bound perform args
    let block ← evalBlock bound perform block
    withBlock block fun id => perform (.call receiver name args id type)
  | bareCall name => do perform (.call (← currentSelf) name [] none .bareName)
  | yield args => do perform (.yield (← evalAll bound perform args))
  | makeProc literal => perform (.makeProc literal .proc)
  | makeLambda literal => perform (.makeProc literal .lambda)
  | methodRef name => perform (.methodRef name)
  | doReturn value => do perform (.doReturn (← evalOperand bound perform value))
  | doBreak value => do signal (.stop none (← evalOperand bound perform value))
  | doNext value => do signal (.next (← evalOperand bound perform value))
  | redo => signal .redo
  | retry => signal .retry
  | loop test body =>
    looping (evalWith bound perform test) (evalWith bound perform body) bound bound
  | rescue body handler =>
    rescuing (evalWith bound perform body) (evalWith bound perform handler) bound
  | raise message => do
    let message ← evalWith bound perform message
    raiseWith fun s => .runtime (s.view message).text
  | define name scope params body => perform (.define name ⟨scope, params, body⟩)
  | classBody name superclass isModule scope body =>
    Eval.classBody name superclass isModule scope (evalWith bound perform body)
  | constant name => constantValue name
  | superCall => perform .superCall
  | blockGiven => Eval.blockGiven

def evalAll (bound : Nat) (perform : Performer) : List Node → Eval (List Value)
  | [] => pure []
  | item :: rest => do
    let value ← evalWith bound perform item
    return value :: (← evalAll bound perform rest)

/-- The value of the last item, or `last` if there is none. -/
def evalLast (bound : Nat) (perform : Performer) (last : Value) : List Node → Eval Value
  | [] => pure last
  | item :: rest => do
    let value ← evalWith bound perform item
    evalLast bound perform value rest

/-- An operand that is not there is nil. -/
def evalOperand (bound : Nat) (perform : Performer) : Option Node → Eval Value
  | none => pure .nil
  | some value => evalWith bound perform value

/-- The receiver of a call and how the call is written. -/
def evalReceiver (bound : Nat) (perform : Performer) : Option Node → Eval (Value × CallType)
  | none => return (← currentSelf, .functional)
  | some receiver => return (← evalWith bound perform receiver, .normal)

def evalBlock (bound : Nat) (perform : Performer) : BlockArg (Literal StaticId Node) Node →
    Eval (BlockArg (Literal StaticId Node) Value)
  | .absent => pure .absent
  | .literal literal => pure (.literal literal)
  | .pass value => return .pass (← evalWith bound perform value)

end

/-- Evaluation where calls and yields are asked of a responder. -/
def eval (bound : Nat) (ask : Responder) (node : Node) : Eval Value :=
  node.evalWith bound (Act.perform ask)

end CallEngine.Tree
