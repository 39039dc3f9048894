import CallEngine.Eval.Answer
/-! Entry points: what a host can ask of a context. `fuel` bounds nested calls and the iterations
of each loop. -/
namespace CallEngine.Engine
open Eval

variable (fuel : Nat)

/-- Signals that nothing caught become errors. -/
def surfaced (body : Eval Value) : Eval Value := do
  ofOutcome (← observe body).surfaced

def evalNode (node : Node) : Eval Value := node.eval fuel (answer fuel)

/-- A body with the main object as its self. -/
def toplevel (scope : StaticId) (body : Node) : Eval Value := do
  let main ← read (·.context.main)
  let env ← enterScope scope []
  withFrame { self := .object main, cls := some Core.object, visibility := .priv } <|
    withScope env (evalNode fuel body)

def runToplevel (scope : StaticId) (body : Node) : Eval Value := surfaced (toplevel fuel scope body)

/-- Sends a message from outside. -/
def send (receiver : Value) (name : String) (args : List Value) : Eval Value :=
  surfaced (callMethod (answer fuel) receiver name args none .normal)

/-- Runs a method without asking who may call it. -/
def invoke (method : MethodId) (call : Call) : Eval Value := answer fuel (.invoke method call)

def yield (closure : ClosureId) (delivery : Delivery) : Eval Value :=
  answer fuel (.yield closure delivery)

def callClosure (closure : ClosureId) (args : List Value) : Eval Value :=
  Eval.callClosure (answer fuel) closure args

def dispatch (receiver : Value) (name : String) (args : List Value)
    (block : BlockArg (Literal StaticId Node) Value) (type : CallType) : Eval Value :=
  Eval.dispatch (answer fuel) receiver name args block type

/-- A closure like the given one, with a copy of every cell it sees. -/
def cloneClosure (id : ClosureId) : Eval ClosureId := do
  let closure ← Eval.closure id
  let env ← modifyGet fun s =>
    let (env, memory) := s.shared.memory.clone closure.binding.env
    (env, { s with shared.memory := memory })
  let binding := { closure.binding with frame := closure.binding.frame.duplicate, env }
  modifyGet fun s =>
    let (id, shared) := s.shared.addClosure closure.body binding closure.kind
    (id, { s with shared })

/-- Gives the scopes of a source tree their identities. A fault leaves memory as it was. -/
def resolve {α : Type} (resolver : Resolver α) : Eval α := do
  match ← read fun s => resolver s.shared.memory with
  | .ok a memory => do
    modify fun s => { s with shared.memory := memory }
    return a
  | .error fault _ => throw (.fault fault)

end CallEngine.Engine
