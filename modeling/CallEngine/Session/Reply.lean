import CallEngine.Eval
/-! What a session answers. -/
namespace CallEngine

structure ErrorView where
  kind : ErrorKind
  exitValue : Option View
  backtrace : List String
deriving Inhabited

structure FrameView where
  self : View
  visibility : Visibility
  className : Option String
  name : Option String
  hasBlock : Bool
  hasJumpTarget : Bool
  hasActivation : Bool
deriving Inhabited

def EvalError.view (directory : Directory) (error : EvalError) : ErrorView where
  kind := error.kind
  exitValue := error.exitValue.map (Value.view directory)
  backtrace := error.backtrace

def Frame.view (directory : Directory) (frame : Frame) : FrameView where
  self := frame.self.view directory
  visibility := frame.visibility
  className := frame.cls.map fun c => (directory.cls c).name
  name := frame.name
  hasBlock := frame.block.isSome
  hasJumpTarget := frame.jumpTarget.isSome
  hasActivation := frame.activation.isSome

namespace Session

/-- What a signal is aimed at, as far as the session has a name for it. -/
inductive Aim where
  | register (name : String)
  | other
deriving Inhabited

inductive Ending where
  | value (value : View)
  | error (error : ErrorView)
  | leave (aim : Aim) (value : View)
  | stop (aim : Option Aim) (value : View)
  | next (value : View)
  | redo
  | retry
deriving Inhabited

inductive MethodBodyView where
  | interpreted (label : String) (vars : Nat) (promotion : PromotionState)
  | compiled (outline : String)
  | builtin
deriving Inhabited

structure MethodView where
  owner : String
  visibility : Visibility
  config : CallConfig
  arity : Arity
  body : MethodBodyView
deriving Inhabited

structure CapturedView where
  kind : ClosureKind
  arity : Arity
  body : String
  self : View
  className : Option String
  visibility : Visibility
  frame : FrameView
  /-- The variables of the scopes it sees, innermost first. -/
  chain : List (List View)
  args : List View
  isLive : Bool
  /-- Whether what its returns are aimed at can still catch them. -/
  targetActive : Option Bool
deriving Inhabited

structure Description where
  inspect : String
  text : String
  describe : String
  typeName : String
  isTruthy : Bool
  isNil : Bool
  int : Option Int64
  length : Option Nat
  isProc : Bool
deriving Inhabited

/-- What there was inside a body that was entered by hand. -/
structure EntryView where
  config : CallConfig
  depth : Nat
  frame : FrameView
  hasVariables : Bool
  targetActive : Option Bool
  backtrace : List String
  body : Option Ending
  targetActiveAfter : Option Bool
deriving Inhabited

inductive Info where
  | absent
  | offset (offset : Nat)
  | defined
  | compileError (message : String)
  | method (method : MethodView)
  | copied (hasOwnIdentity : Bool)
  | closure (closure : CapturedView)
  | sameness (isSameInstance hasSameIdentity : Bool)
  | cls (ancestors : List String) (isModule : Bool) (outline : String)
  | inherits (inherits : Bool)
  | description (description : Description)
  | frame (frame : FrameView)
  | outlines (context engine : String)
  | hookAdded (id : Nat) (isActive : Bool)
  | hookRemoved (wasRegistered isActive : Bool)
  | entry (entry : EntryView)
deriving Inhabited

inductive Answer where
  | ending (ending : Ending)
  | info (info : Info)
  | fault (fault : Fault)
  | exhausted
deriving Inhabited

structure Reply where
  answer : Answer
  depth : Nat
  lastCall : CallType
  compiled : Nat
  failed : Nat
  isInterrupted : Bool
  /-- Events that hooks were told of during the step. -/
  events : List (Nat × Event)
  compiles : List CompileRecord
deriving Inhabited

/-- `aim` names targets. -/
def Ending.ofOutcome (directory : Directory) (aim : Target → Aim) : Outcome → Ending
  | .ok v => .value (v.view directory)
  | .error (.error e) => .error (e.view directory)
  | .error (.leave target v) => .leave (aim target) (v.view directory)
  | .error (.stop target v) => .stop (target.map aim) (v.view directory)
  | .error (.next v) => .next (v.view directory)
  | .error .redo => .redo
  | .error .retry => .retry

end Session

end CallEngine
