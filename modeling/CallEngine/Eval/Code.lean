import CallEngine.Eval.Act
import CallEngine.Eval.Loop
import CallEngine.Eval.Operator
/-! Execution of compiled bodies, with the calls and loops that trees use. -/
namespace CallEngine.Code
open Eval

/-- What becomes of the value that a body leaves with. -/
def takeExit (perform : Performer) : Exit → Value → Eval Value
  | .doReturn, value => perform (.doReturn value)
  | .doBreak, value => signal (.stop none value)
  | .doNext, value => signal (.next value)

mutual

def execWith (bound : Nat) (perform : Performer) : Code → Eval Value
  | const value => pure value
  | array items => return .array (← execAll bound perform items).toArray
  | self => currentSelf
  | localGet offset depth => do readVariable (← currentEnv) offset depth
  | localSet offset depth value => do
    let value ← execWith bound perform value
    writeVariable (← currentEnv) offset depth value
    return value
  | globalGet name => global name
  | globalSet name value => do
    let value ← execWith bound perform value
    setGlobal name value
    return value
  | seq items => execLast bound perform .nil items
  | branch test yes no => do
    if (← execWith bound perform test).isTruthy then execWith bound perform yes
    else execWith bound perform no
  | binary op lhs rhs => do
    let left ← execWith bound perform lhs
    let right ← execWith bound perform rhs
    applyBinary op left right
  | send receiver name args block => do
    let (receiver, type) ← execReceiver bound perform receiver
    let args ← execAll bound perform args
    let block ← execBlock bound perform block
    withBlock block fun id => perform (.call receiver name args id type)
  | bareCall name => do perform (.call (← currentSelf) name [] none .bareName)
  | yield args => do perform (.yield (← execAll bound perform args))
  | closure kind literal => perform (.makeProc literal kind)
  | methodRef name => perform (.methodRef name)
  | leave exit value => do takeExit perform exit (← execWith bound perform value)
  | redo => signal .redo
  | loop test body =>
    looping (execWith bound perform test) (execWith bound perform body) bound bound
  | raise message => do
    let message ← execWith bound perform message
    raiseWith fun s => .runtime (s.view message).text
  | constant name => constantValue name
  | blockGiven => Eval.blockGiven

def execAll (bound : Nat) (perform : Performer) : List Code → Eval (List Value)
  | [] => pure []
  | item :: rest => do
    let value ← execWith bound perform item
    return value :: (← execAll bound perform rest)

def execLast (bound : Nat) (perform : Performer) (last : Value) : List Code → Eval Value
  | [] => pure last
  | item :: rest => do
    let value ← execWith bound perform item
    execLast bound perform value rest

def execReceiver (bound : Nat) (perform : Performer) : Option Code → Eval (Value × CallType)
  | none => return (← currentSelf, .functional)
  | some receiver => return (← execWith bound perform receiver, .normal)

def execBlock (bound : Nat) (perform : Performer) : BlockArg (Literal StaticId Node) Code →
    Eval (BlockArg (Literal StaticId Node) Value)
  | .absent => pure .absent
  | .literal literal => pure (.literal literal)
  | .pass value => return .pass (← execWith bound perform value)

end

/-- Execution where calls and yields are asked of a responder. -/
def exec (bound : Nat) (ask : Responder) (code : Code) : Eval Value :=
  code.execWith bound (Act.perform ask)

end CallEngine.Code
