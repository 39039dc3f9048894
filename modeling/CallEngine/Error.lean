import CallEngine.Tree
import CallEngine.View
/-! Errors that scripts see. The kind of an error holds its cause; `message` words it. -/
namespace CallEngine

/-- The construct that a jump failed to leave. -/
inductive JumpReason where
  | fromReturn | fromBreak | fromNext | fromRedo | fromRetry | noReason
deriving DecidableEq, Inhabited, Repr

def JumpReason.name : JumpReason → String
  | fromReturn => "return"
  | fromBreak => "break"
  | fromNext => "next"
  | fromRedo => "redo"
  | fromRetry => "retry"
  | noReason => "noreason"

/-- Why a method that exists may not be called. -/
inductive Restriction where
  | callsWithoutReceiver
  | callsFromKin
deriving DecidableEq, Inhabited, Repr

def Restriction.name : Restriction → String
  | callsWithoutReceiver => "private"
  | callsFromKin => "protected"

inductive ErrorKind where
  | arityMismatch (error : ArityError)
  | localJump (reason : JumpReason) (message : String)
  | noMethod (name receiver : String) (restriction : Option Restriction)
  | noSuperMethod (name : String)
  | uninitializedConstant (name : String)
  | wrongReceiver (expected found : String)
  | binaryTypeMismatch (op : BinaryOp) (left right : String)
  | runtime (message : String)
  | stackOverflow (depth : Nat)
  | interrupted
deriving DecidableEq, Inhabited, Repr

namespace ErrorKind

def className : ErrorKind → String
  | arityMismatch _ => "ArgumentError"
  | localJump .. => "LocalJumpError"
  | noMethod .. | noSuperMethod _ => "NoMethodError"
  | uninitializedConstant _ => "NameError"
  | wrongReceiver .. | binaryTypeMismatch .. => "TypeError"
  | runtime _ => "RuntimeError"
  | stackOverflow _ => "SystemStackError"
  | interrupted => "Interrupt"

def isRescuable : ErrorKind → Bool
  | interrupted | stackOverflow _ => false
  | _ => true

def message : ErrorKind → String
  | arityMismatch error => error.message
  | localJump _ message | runtime message => message
  | noMethod name receiver none => s!"undefined method `{name}' for {receiver}"
  | noMethod name receiver (some restriction) =>
    s!"{restriction.name} method `{name}' called for {receiver}"
  | noSuperMethod name => s!"super: no superclass method `{name}'"
  | uninitializedConstant name => s!"uninitialized constant {name}"
  | wrongReceiver expected found => s!"wrong receiver type {found} (expected {expected})"
  | binaryTypeMismatch op left right =>
    s!"operator `{op.symbol}` cannot be applied to {left} and {right}"
  | stackOverflow depth => s!"stack level too deep (limit: {depth})"
  | interrupted => "thread interrupted"

end ErrorKind

structure EvalError where
  kind : ErrorKind
  /-- What a failed jump was carrying. -/
  exitValue : Option Value := none
  /-- Method names on the stack where the error surfaced, innermost first. -/
  backtrace : List String := []
deriving DecidableEq, Inhabited

namespace EvalError

def message (e : EvalError) : String := e.kind.message

def display (e : EvalError) : String := s!"{e.message} ({e.kind.className})"

def arityMismatch (error : ArityError) : EvalError := ⟨.arityMismatch error, none, []⟩

def localJump (reason : JumpReason) (value : Value) (message : String) : EvalError :=
  ⟨.localJump reason message, some value, []⟩

def noBlockGiven : EvalError := localJump .noReason .nil "no block given"

def breakFromClosure (value : Value) : EvalError :=
  localJump .fromBreak value "break from proc-closure"

def unexpectedReturn (value : Value) : EvalError :=
  localJump .fromReturn value "unexpected return"

def noMethod (directory : Directory) (name : String) (receiver : Value) : EvalError :=
  ⟨.noMethod name (receiver.describe directory) none, none, []⟩

def restricted (directory : Directory) (restriction : Restriction) (name : String)
    (receiver : Value) : EvalError :=
  ⟨.noMethod name (receiver.describe directory) (some restriction), none, []⟩

def noSuperMethod (name : String) : EvalError := ⟨.noSuperMethod name, none, []⟩

def uninitializedConstant (name : String) : EvalError := ⟨.uninitializedConstant name, none, []⟩

def wrongReceiver (directory : Directory) (expected : String) (found : Value) : EvalError :=
  ⟨.wrongReceiver expected (found.typeName directory), none, []⟩

def binaryTypeMismatch (directory : Directory) (op : BinaryOp) (left right : Value) : EvalError :=
  ⟨.binaryTypeMismatch op (left.typeName directory) (right.typeName directory), none, []⟩

def runtime (message : String) : EvalError := ⟨.runtime message, none, []⟩

def stackOverflow (depth : Nat) : EvalError := ⟨.stackOverflow depth, none, []⟩

def interrupted : EvalError := ⟨.interrupted, none, []⟩

end EvalError

end CallEngine
