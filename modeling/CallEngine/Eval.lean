import CallEngine.State
/-! Evaluation: a state is changed, and a value or a reason to halt comes out.

Signals can be observed and turned into something else. Faults cannot, and neither can the
exhaustion of the bound that every evaluation carries on its calls and iterations. -/
namespace CallEngine

inductive Halt where
  | signal (signal : Signal)
  | fault (fault : Fault)
  /-- The bound on nested calls and on iterations was too small. -/
  | exhausted
deriving DecidableEq, Inhabited

abbrev Eval := EStateM Halt State

namespace Eval

variable {α : Type}

def read (view : State → α) : Eval α := fun s => .ok (view s) s

def signal (g : Signal) : Eval α := throw (.signal g)

def raise (e : EvalError) : Eval α := signal (.error e)

/-- An error whose words need the state. -/
def raiseWith (error : State → EvalError) : Eval α := do raise (← read error)

def ofOutcome : Outcome → Eval Value
  | .ok value => pure value
  | .error g => signal g

def orFault : Except Fault α → Eval α
  | .ok a => pure a
  | .error f => throw (.fault f)

def orRaise : Except EvalError α → Eval α
  | .ok a => pure a
  | .error e => raise e

/-- The outcome of a body as a value. -/
def observe (body : Eval Value) : Eval Outcome := fun s =>
  match body s with
  | .ok value s => .ok (.ok value) s
  | .error (.signal g) s => .ok (.error g) s
  | .error halt s => .error halt s

/-- `after` changes the state however the body ends. -/
def ensuring (body : Eval α) (after : State → State) : Eval α := fun s =>
  match body s with
  | .ok a s => .ok a (after s)
  | .error halt s => .error halt (after s)

def view (value : Value) : Eval View := read (·.view value)

def currentFrame : Eval Frame := do orFault (← read (·.context.stack.current))

def currentSelf : Eval Value := return (← currentFrame).self

def currentEnv : Eval Env := do
  match ← read (·.context.scopes) with
  | env :: _ => pure env
  | [] => throw (.fault .noScope)

/-- The class that definitions go to. -/
def currentClass : Eval ClassId := return (← currentFrame).cls.getD Core.object

/-- The visibility of what the current frame defines from now on. -/
def setVisibility (visibility : Visibility) : Eval Unit := do
  let stack ← orFault (← read (·.context.stack.setVisibility visibility))
  modify fun s => { s with context.stack := stack }

def isActive (target : Target) : Eval Bool := read (·.context.stack.isActive target)

/-- A request to stop is noticed once. -/
def poll : Eval Unit := do
  if ← read fun s => s.shared.monitor.isPending s.context.id then
    modify fun s => { s with shared.monitor := s.shared.monitor.settle s.context.id }
    raise .interrupted

def readVariable (env : Env) (offset depth : Nat) : Eval Value := do
  orFault (← read (·.shared.memory.read env offset depth))

def writeVariable (env : Env) (offset depth : Nat) (value : Value) : Eval Unit := do
  let id ← orFault (← read (·.shared.memory.writable env offset depth))
  modify fun s => { s with shared.memory := s.shared.memory.put id offset value }

def writeArguments (env : Env) (values : List Value) (count : Nat) : Eval Unit := do
  if count = 0 then pure ()
  else
    let id ← orFault (← read (·.shared.memory.innermost env))
    modify fun s =>
      { s with shared.memory := s.shared.memory.change id (overlay · 0 (values.take count)) }

/-- A new cell for the scope, in front of `parent`. -/
def enterScope (scope : StaticId) (parent : Env) : Eval Env :=
  modifyGet fun s =>
    let (env, memory) := s.shared.memory.allocate scope parent
    (env, { s with shared.memory := memory })

def global (name : String) : Eval Value := read fun s => (s.context.globals.get? name).getD .nil

def setGlobal (name : String) (value : Value) : Eval Unit :=
  modify fun s => { s with context.globals := s.context.globals.insert name value }

def closure (id : ClosureId) : Eval Closure := read (·.shared.closure id)

def method (id : MethodId) : Eval Method := read (·.shared.library.method id)

/-- A closure over the current frame and environment. -/
def makeClosure (body : ClosureBody) (kind : ClosureKind) : Eval ClosureId := do
  let frame := (← currentFrame).duplicate
  let env ← currentEnv
  let binding : Binding :=
    { self := frame.self, frame, visibility := frame.visibility, cls := frame.cls, env }
  modifyGet fun s =>
    let (id, shared) := s.shared.addClosure body binding kind
    (id, { s with shared })

def newObject (cls : ClassId) : Eval Value :=
  modifyGet fun s =>
    let (object, shared) := s.shared.newObject cls
    (.object object, { s with shared })

def addMethod (method : Target → Method) : Eval MethodId :=
  modifyGet fun s =>
    let (id, shared) := s.shared.addMethod method
    (id, { s with shared })

def copyMethod (id : MethodId) (change : Method → Method) : Eval MethodId :=
  modifyGet fun s =>
    let (id, shared) := s.shared.copyMethod id change
    (id, { s with shared })

def bindMethod (cls : ClassId) (name : String) (id : MethodId) : Eval Unit :=
  modify fun s => { s with shared.library := s.shared.library.defineMethod cls name id }

def bindSingleton (cls : ClassId) (name : String) (id : MethodId) : Eval Unit :=
  modify fun s => { s with shared.library := s.shared.library.defineSingleton cls name id }

end Eval

end CallEngine
