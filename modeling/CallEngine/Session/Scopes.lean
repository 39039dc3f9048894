import CallEngine.Session.Outline
/-! Sessions on a memory alone. Static scopes and environments are numbered in the order in which
they were made. -/
namespace CallEngine.Scopes

inductive Step where
  | method (vars : List String) (layout : Option Arity)
  | closure (parent : StaticId) (vars : List String) (layout : Option Arity)
  | declare (scope : StaticId) (name : String)
  | find (scope : StaticId) (name : String)
  | static (scope : StaticId)
  | enter (scope : StaticId) (parent : Option Nat)
  | get (env offset depth : Nat)
  | set (env offset depth : Nat) (value : Value)
  | setArguments (env : Nat) (values : List Value) (count : Nat)
  | grow (env : Nat)
  | arguments (env : Nat)
  | clone (env : Nat)
  | parent (env : Nat)
  | hasVariables (env : Nat)
  | sameStatic (left right : Nat)
  | outline (env : Nat)

inductive Reply where
  | static (id : StaticId)
  | offset (offset : Nat)
  | found (address : Option (Nat × Nat))
  | scope (scope : StaticScope)
  | made (env : Nat)
  /-- Nothing at the outermost scope. -/
  | parent (env : Option (Nat × Bool))
  | value (value : View)
  | values (values : List View)
  | done
  | flag (flag : Bool)
  | text (text : String)
  | fault (fault : Fault)

structure Session where
  memory : Memory := {}
  envs : List Env := []

namespace Session

def env (session : Session) (number : Nat) : Env := session.envs.getD number []

def addStatic (session : Session) (scope : StaticScope) (layout : Option Arity) :
    Reply × Session :=
  match layout.elim (.ok scope) scope.withLayout with
  | .ok scope =>
    let (id, memory) := session.memory.addStatic scope
    (.static id, { session with memory })
  | .error fault => (.fault fault, session)

def addEnv (session : Session) (env : Env) (memory : Memory) : Reply × Session :=
  (.made session.envs.length, { memory, envs := session.envs ++ [env] })

def update (session : Session) (memory : Except Fault Memory) : Reply × Session :=
  match memory with
  | .ok memory => (.done, { session with memory })
  | .error fault => (.fault fault, session)

/-- The environment around the numbered one, which gets a number if it had none. -/
def parent (session : Session) (number : Nat) : Reply × Session :=
  match (session.env number).tail with
  | [] => (.parent none, session)
  | cell :: outer =>
    match session.envs.findIdx? (·.head? = some cell) with
    | some index => (.parent (some (index, false)), session)
    | none =>
      (.parent (some (session.envs.length, true)),
        { session with envs := session.envs ++ [cell :: outer] })

def staticOf (session : Session) (number : Nat) : Option StaticId :=
  (session.env number).head?.map fun cell => (session.memory.cell cell).scope

def step (session : Session) : Step → Reply × Session
  | .method vars layout => session.addStatic { vars } layout
  | .closure parent vars layout =>
    let enclosing := parent :: (session.memory.static parent).enclosing
    session.addStatic { kind := .closure, enclosing, vars } layout
  | .declare scope name =>
    let memory := session.memory.declare scope name
    (.offset ((memory.static scope).vars.idxOf name), { session with memory })
  | .find scope name => (.found (session.memory.find scope name), session)
  | .static scope => (.scope (session.memory.static scope), session)
  | .enter scope parent =>
    let (env, memory) := session.memory.allocate scope (parent.elim [] session.env)
    session.addEnv env memory
  | .get env offset depth =>
    match session.memory.read (session.env env) offset depth with
    | .ok value => (.value value.plainView, session)
    | .error fault => (.fault fault, session)
  | .set env offset depth value =>
    session.update (session.memory.write (session.env env) offset depth value)
  | .setArguments env values count =>
    session.update (session.memory.writeArguments (session.env env) values count)
  | .grow env => session.update (session.memory.grow (session.env env))
  | .arguments env =>
    (.values ((session.memory.arguments (session.env env)).map Value.plainView), session)
  | .clone env =>
    let (env, memory) := session.memory.clone (session.env env)
    session.addEnv env memory
  | .parent env => session.parent env
  | .hasVariables env => (.flag (session.memory.hasVariables (session.env env)), session)
  | .sameStatic left right => (.flag (session.staticOf left = session.staticOf right), session)
  | .outline env => (.text (session.memory.outline (session.env env)), session)

def run (session : Session) : List Step → List Reply
  | [] => []
  | first :: rest =>
    let (reply, session) := session.step first
    reply :: session.run rest

end Session

end CallEngine.Scopes
