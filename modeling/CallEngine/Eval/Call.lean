import CallEngine.Eval.Bracket
/-! Calls, yields, returns and definitions, as trees and code both use them.

What a call or a yield leads to is asked of a responder, so that everything here is defined before
the bodies that run are. -/
namespace CallEngine

structure Call where
  self : Value
  name : String
  args : List Value
  block : Option ClosureId
deriving DecidableEq, Inhabited

/-- What is yielded to a closure. -/
structure Delivery where
  value : Value
  /-- Takes the place of the captured self. -/
  self : Option Value := none
  /-- Takes the place of the captured class. -/
  cls : Option ClassId := none
  /-- The value is a list of arguments rather than one of them. -/
  isPacked : Bool := false
deriving DecidableEq, Inhabited

inductive Request where
  | invoke (method : MethodId) (call : Call)
  | yield (closure : ClosureId) (delivery : Delivery)

abbrev Responder := Request → Eval Value

namespace Outcome

/-- At the call that a closure literal belongs to. -/
def atLiteral (target : Target) : Outcome → Outcome
  | .error (.stop (some t) value) =>
    if t = target then .ok value else .error (.stop (some t) value)
  | other => other

/-- Where a closure is used after its own call is over. -/
def orphaned (target : Target) : Outcome → Outcome
  | .error (.stop (some t) value) =>
    if t = target then .error (.error (.breakFromClosure value))
    else .error (.stop (some t) value)
  | other => other

/-- At the end of a closure's own body. A lambda ends with what it returns or breaks with; any
other closure claims the break. -/
def atClosure (target : Target) (kind : ClosureKind) : Outcome → Outcome
  | .error (.next value) => .ok value
  | .error (.leave t value) =>
    if kind = .lambda ∧ t = target then .ok value else .error (.leave t value)
  | .error (.stop none value) =>
    if kind = .lambda then .ok value else .error (.stop (some target) value)
  | other => other

end Outcome

namespace Eval

variable (ask : Responder)

/-- A protected method can be called on another object by the kin of its owner only. -/
def checkVisibility (method : Method) (receiver : Value) (name : String) (type : CallType) :
    Eval Unit := do
  if type.allowsPrivate then pure ()
  else match method.visibility with
    | .priv => raiseWith fun s => .restricted s.directory .callsWithoutReceiver name receiver
    | .prot => do
      let caller := Library.classOf (← currentSelf)
      if ← read (·.shared.library.inherits caller method.owner) then pure ()
      else raiseWith fun s => .restricted s.directory .callsFromKin name receiver
    | _ => pure ()

def setLastCall (type : CallType) : Eval Unit :=
  modify fun s => { s with context.lastCall := type }

def callMethod (receiver : Value) (name : String) (args : List Value)
    (block : Option ClosureId) (type : CallType) : Eval Value := do
  match ← read (·.shared.library.findMethod receiver name) with
  | none => raiseWith fun s => .noMethod s.directory name receiver
  | some id => do
    checkVisibility (← method id) receiver name type
    setLastCall type
    ask (.invoke id ⟨receiver, name, args, block⟩)

/-- The closure that a value passed as a block stands for. -/
def passedBlock (value : Value) : Eval (Option ClosureId) :=
  match value with
  | .nil => pure none
  | .proc id => pure (some id)
  | other => raiseWith fun s =>
    .runtime ("wrong argument type " ++ other.typeName s.directory ++ " (expected Proc)")

/-- A literal counts as live until the body ends, by a fault apart. -/
def whileLive (target : Target) (body : Eval Value) : Eval Outcome := do
  modify fun s => { s with context.liveLiterals := target :: s.context.liveLiterals }
  let outcome ← observe body
  modify fun s => { s with context.liveLiterals := s.context.liveLiterals.erase target }
  return outcome

def callWithLiteral (literal : Literal StaticId Node) (call : ClosureId → Eval Value) :
    Eval Value := do
  let id ← makeClosure (.literal literal) .normal
  let target := (← closure id).target
  ofOutcome ((← whileLive target (call id)).atLiteral target)

/-- The call that made a proc is over, so nothing waits for its breaks. -/
def callWithPassed (value : Value) (call : Option ClosureId → Eval Value) : Eval Value := do
  match ← passedBlock value with
  | none => call none
  | some id => do
    let passed ← closure id
    let outcome ← observe (call (some id))
    ofOutcome (if passed.kind = .proc then outcome.orphaned passed.target else outcome)

/-- The call with the block that it is written with. -/
def withBlock (block : BlockArg (Literal StaticId Node) Value)
    (call : Option ClosureId → Eval Value) : Eval Value :=
  match block with
  | .absent => call none
  | .literal literal => callWithLiteral literal fun id => call (some id)
  | .pass value => callWithPassed value call

def dispatch (receiver : Value) (name : String) (args : List Value)
    (block : BlockArg (Literal StaticId Node) Value) (type : CallType) : Eval Value :=
  withBlock block fun id => callMethod ask receiver name args id type

/-- One value is yielded as itself, any other number of them as a list of arguments. -/
def yieldArgs (args : List Value) : Eval Value := do
  match (← currentFrame).block with
  | none => raise .noBlockGiven
  | some id =>
    match args with
    | [value] => ask (.yield id { value })
    | _ => ask (.yield id { value := .array args.toArray, isPacked := true })

/-- Leaves the method or lambda that the frame belongs to, if it is still running. -/
def returnValue (value : Value) : Eval Value := do
  let frame ← currentFrame
  match frame.jumpTarget with
  | none => raise (.unexpectedReturn value)
  | some target =>
    if frame.activation = some target ∨ (← isActive target) then signal (.leave target value)
    else raise (.unexpectedReturn value)

def makeProc (literal : Literal StaticId Node) (kind : ClosureKind) : Eval Value :=
  return .proc (← makeClosure (.literal literal) kind)

/-- A method of the current self as a lambda. -/
def methodProc (name : String) : Eval Value := do
  let receiver ← currentSelf
  match ← read (·.shared.library.findMethod receiver name) with
  | some id => return .proc (← makeClosure (.method id name) .lambda)
  | none => raiseWith fun s => .noMethod s.directory name receiver

def blockGiven : Eval Value := return .bool (← currentFrame).block.isSome

def constantValue (name : String) : Eval Value := do
  return .cls (← orRaise (← read (·.shared.library.constant name)))

/-- Calls the closure with a list of arguments. Nothing waits for its breaks unless it is a
literal whose call still runs. -/
def callClosure (id : ClosureId) (args : List Value) : Eval Value := do
  let called ← closure id
  if called.kind = .lambda then
    let arity ← read (·.shared.arity called)
    orRaise ((arity.check args.length).mapError .arityMismatch)
  let outcome ← observe (ask (.yield id { value := .array args.toArray, isPacked := true }))
  let isLive ← read (·.context.liveLiterals.contains called.target)
  ofOutcome (if called.kind = .proc ∨ ¬isLive then outcome.orphaned called.target else outcome)

/-- Defines a method under the visibility of the current frame. -/
def defineMethod (name : String) (definition : Definition) : Eval Value := do
  let frame ← currentFrame
  let owner ← currentClass
  let make (visibility : Visibility) : Eval MethodId := addMethod fun target =>
    ⟨owner, visibility, .frameAndScope, target, .interpreted definition {}⟩
  if frame.visibility = .moduleFunction then
    let instanceMethod ← make .priv
    let singleton ← copyMethod instanceMethod fun m =>
      { m with visibility := .pub, config := .moduleFunction }
    bindMethod owner name instanceMethod
    bindSingleton owner name singleton
  else bindMethod owner name (← make frame.visibility)
  return .nil

/-- The class or module of that name, made if need be. -/
def openClass (name : String) (superclass : Option String) (isModule : Bool) : Eval ClassId := do
  let (id, library) ← orRaise (← read (·.shared.library.openClass name superclass isModule))
  modify fun s => { s with shared.library := library }
  return id

def classBody (name : String) (superclass : Option String) (isModule : Bool) (scope : StaticId)
    (body : Eval Value) : Eval Value := do
  let id ← openClass name superclass isModule
  let env ← enterScope scope []
  withFrame { self := .cls id, cls := some id } (withScope env body)

/-- Sends the arguments that the current method was called with to the next definition above the
class of the frame. -/
def superCall : Eval Value := do
  let frame ← currentFrame
  match frame.cls, frame.name with
  | some cls, some name => do
    let env ← currentEnv
    let args ← read (·.shared.memory.arguments env)
    match ← read (·.shared.library.searchAbove cls name) with
    | none => raise (.noSuperMethod name)
    | some id => do
      setLastCall .super
      ask (.invoke id ⟨frame.self, name, args, frame.block⟩)
  | _, _ => raise (.runtime "super called outside of method")

end Eval

end CallEngine
