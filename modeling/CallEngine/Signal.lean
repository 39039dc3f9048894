import CallEngine.Error
/-! Ways to leave a body other than with its value. -/
namespace CallEngine

/-- Identity of a method or closure that signals can be aimed at. -/
structure Target where
  serial : Nat
deriving DecidableEq, Inhabited, Repr

inductive Signal where
  | error (error : EvalError)
  /-- Leaves the activation of the method or lambda `target`. -/
  | leave (target : Target) (value : Value)
  /-- Without a target, no closure has claimed the break yet. -/
  | stop (target : Option Target) (value : Value)
  | next (value : Value)
  | redo
  | retry
deriving DecidableEq, Inhabited

namespace Signal

def isError : Signal → Bool
  | error _ => true
  | _ => false

/-- The error that a signal becomes where nothing can catch it any more. -/
def surface : Signal → EvalError
  | error e => e
  | leave _ value => .unexpectedReturn value
  | stop _ value => .localJump .fromBreak value "unexpected break"
  | next value => .localJump .fromNext value "unexpected next"
  | redo => .localJump .fromRedo .nil "unexpected redo"
  | retry => .localJump .fromRetry .nil "retry outside of rescue clause"

/-- Signals other than returns and claimed breaks stop at a method. -/
def isLocal : Signal → Bool
  | stop none _ | next _ | redo | retry => true
  | _ => false

end Signal

/-- How a body ends: with a value or a signal. -/
abbrev Outcome := Except Signal Value

namespace Outcome

/-- The end of the method `target`, seen from its caller. -/
def atMethod (target : Target) : Outcome → Outcome
  | .error (.leave t value) => if t = target then .ok value else .error (.leave t value)
  | .error signal => if signal.isLocal then .error (.error signal.surface) else .error signal
  | ok => ok

def surfaced : Outcome → Outcome
  | .error signal => .error (.error signal.surface)
  | ok => ok

end Outcome

end CallEngine
