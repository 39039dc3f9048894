import CallEngine.Session.Perform
/-! Sessions: a list of steps on one engine, answered one by one. -/
namespace CallEngine

structure Session where
  shared : Shared
  contexts : List Context
  names : Session.Names := {}
  /-- Whether replies tell of requests to the backend. -/
  tellsCompiles : Bool := true

namespace Session

/-- Makes the scope that a command names for the first time. -/
def nameScope (session : Session) : Command → Session
  | .run _ vars (some name) =>
    match session.names.scopes.get? name with
    | some _ => session
    | none =>
      let (id, memory) := session.shared.memory.addStatic { vars }
      { session with
        shared.memory := memory
        names.scopes := session.names.scopes.insert name id }
  | _ => session

/-- Runs an evaluation in a context of the session. -/
def inContext {α : Type} (session : Session) (context : ContextId) (body : Eval α) :
    Except Halt α × Session :=
  let state : State := ⟨session.shared, session.contexts.getD context default⟩
  match body state with
  | .ok a s => (.ok a, { session with
      shared := s.shared, contexts := session.contexts.set context s.context })
  | .error halt s => (.error halt, { session with
      shared := s.shared, contexts := session.contexts.set context s.context })

/-- A value goes to the register that the step names. -/
def keep (session : Session) (register : Option String) : Except Halt Finding → Session
  | .ok (.value value) =>
    match register with
    | some name => { session with names.registers := session.names.registers.insert name value }
    | none => session
  | _ => session

/-- The first register, in the order of names, whose closure is the target. -/
def aim (session : Session) (target : Target) : Aim :=
  let holds : String × Value → Bool
    | (_, .proc id) => (session.shared.closure id).target = target
    | _ => false
  match session.names.registers.toList.find? holds with
  | some (name, _) => .register name
  | none => .other

def answerOf (session : Session) (context : Context) : Except Halt Finding → Answer
  | .ok (.value value) => .ending (ending (.ok value))
  | .ok (.info info) => .info info
  | .error (.signal g) => .ending (ending (.error g))
  | .error (.fault fault) => .fault fault
  | .error .exhausted => .exhausted
where
  ending (outcome : Outcome) : Ending :=
    Ending.ofOutcome (State.directory ⟨session.shared, context⟩) session.aim outcome

/-- Answers one step. -/
def step (fuel : Nat) (session : Session) (step : Step) : Reply × Session :=
  let session := session.nameScope step.command
  let told := session.shared.monitor.deliveries.size
  let asked := session.shared.stats.requests.size
  let (result, session) :=
    session.inContext step.context (perform fuel session.names step.command)
  let session := session.keep step.register result
  let shared := session.shared
  let context := session.contexts.getD step.context default
  ({ answer := session.answerOf context result
     depth := context.stack.depth
     lastCall := context.lastCall
     compiled := shared.stats.compiled
     failed := shared.stats.failed
     isInterrupted := shared.monitor.isPending context.id
     events := (shared.monitor.deliveries.extract told shared.monitor.deliveries.size).toList
     compiles := if session.tellsCompiles
       then (shared.stats.requests.extract asked shared.stats.requests.size).toList else [] },
    session)

def run (fuel : Nat) (session : Session) : List Step → List Reply
  | [] => []
  | first :: rest =>
    let (reply, session) := session.step fuel first
    reply :: session.run fuel rest

/-- Contexts are numbered from zero. -/
def addContexts (session : Session) : Nat → Session
  | 0 => session
  | count + 1 =>
    let (context, shared) := session.shared.newContext session.contexts.length
    addContexts { session with shared, contexts := session.contexts ++ [context] } count

/-- A fresh engine with its contexts. -/
def start (config : Config) (backend : Backend) (tellsCompiles : Bool) (hooks : List Hook)
    (contexts : Nat) (firstTarget : Nat) : Session :=
  let shared := Shared.start config backend hooks firstTarget
  addContexts { shared, contexts := [], tellsCompiles } contexts

end Session

end CallEngine
