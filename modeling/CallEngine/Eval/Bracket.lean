import CallEngine.Eval
/-! What surrounds a body: its frames, its scope and the events that report it.

Every bracket undoes what it did however the body ends. -/
namespace CallEngine

namespace State

def popFrame (s : State) : State :=
  { s with context.stack := s.context.stack.drop }

def popScope (s : State) : State := { s with context.scopes := s.context.scopes.tail }

def fire (s : State) (event : Event) : State :=
  { s with shared.monitor := s.shared.monitor.fire event }

end State

/-- What entering a body needs to know of a call. -/
structure Invocation where
  self : Value
  owner : Option ClassId
  name : String
  arity : Arity
  argCount : Nat
  block : Option ClosureId
  scope : Option StaticId
  /-- What a return in the body is aimed at. -/
  target : Option Target
  isBuiltin : Bool

namespace Invocation

def exitKind (call : Invocation) : EventKind := if call.isBuiltin then .builtinReturn else .ret

/-- The event of entering the body, once its frames are there. -/
def entry (call : Invocation) (s : State) : Event where
  kind := if call.isBuiltin then .builtinCall else .call
  name := call.name
  className := call.owner.map fun owner => (s.shared.library.cls owner).name
  depth := s.context.stack.depth

end Invocation

/-- The frames of a body, outermost first. -/
def CallConfig.frames (config : CallConfig) (call : Invocation) : List Frame :=
  let body : Frame :=
    { self := call.self, cls := call.owner, name := some call.name, block := call.block,
      jumpTarget := call.target, activation := call.target }
  match config, call.owner with
  | .inPlace, _ => []
  | .moduleFunction, some owner => [{ self := .cls owner, cls := some owner }, body]
  | _, _ => [body]

namespace Eval

variable {α : Type}

def pushFrame (frame : Frame) : Eval Unit := do
  let stack ← orRaise (← read (·.context.stack.push frame))
  modify fun s => { s with context.stack := stack }

def withFrame (frame : Frame) (body : Eval α) : Eval α := do
  pushFrame frame
  ensuring body State.popFrame

/-- A frame that does not fit takes the ones before it down with it. -/
def withFrames : List Frame → Eval α → Eval α
  | [], body => body
  | frame :: inner, body => withFrame frame (withFrames inner body)

def withScope (env : Env) (body : Eval α) : Eval α := do
  modify fun s => { s with context.scopes := env :: s.context.scopes }
  ensuring body State.popScope

/-- The body in a new cell of the scope, if there is one to enter. -/
def withNewScope (scope : Option StaticId) (body : Eval α) : Eval α :=
  match scope with
  | some scope => do withScope (← enterScope scope []) body
  | none => body

/-- Reports the body if any hook is registered when it is entered. -/
def traced (call : Invocation) (body : Eval α) : Eval α := do
  if ← read (·.shared.monitor.isActive) then
    let event ← read call.entry
    modify (·.fire event)
    ensuring body (·.fire { event with kind := call.exitKind })
  else body

/-- Enters a body under a call configuration. -/
def entering (config : CallConfig) (call : Invocation) (body : Eval α) : Eval α := do
  if config.checksArity then
    orRaise ((call.arity.check call.argCount).mapError .arityMismatch)
  withFrames (config.frames call) <|
    withNewScope (if config.pushesScope then call.scope else none) <| traced call body

end Eval

end CallEngine
