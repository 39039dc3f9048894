import CallEngine.Closure
import CallEngine.Monitor
/-! The state of an engine: what all contexts share, and what belongs to one of them. -/
namespace CallEngine

/-- How a call was written. -/
inductive CallType where
  /-- With a receiver. -/
  | normal
  | functional
  | bareName
  | super
deriving DecidableEq, Inhabited, Repr

namespace CallType

def allowsPrivate (type : CallType) : Bool := type != normal

def name : CallType → String
  | normal => "Normal"
  | functional => "Functional"
  | bareName => "Variable"
  | super => "Super"

end CallType

structure Shared where
  config : Config := {}
  backend : Backend := Backend.lowering
  memory : Memory := {}
  library : Library := {}
  closures : Array Closure := #[]
  /-- Serial number of the next target. -/
  nextTarget : Nat := 1
  /-- Number of the next object. -/
  nextObject : Nat := 0
  monitor : Monitor := {}
  stats : CompileStats := {}

instance : Inhabited Shared := ⟨{}⟩

structure Context where
  id : ContextId
  stack : FrameStack
  /-- Environments of the bodies that run, innermost first. -/
  scopes : List Env
  lastCall : CallType := .normal
  globals : Table Value := {}
  main : Object
  /-- Closure literals whose call still runs, latest first. -/
  liveLiterals : List Target := []
deriving Inhabited

structure State where
  shared : Shared
  context : Context
deriving Inhabited

namespace Shared

def closure (shared : Shared) (id : ClosureId) : Closure := shared.closures.getD id default

def freshTarget (shared : Shared) : Target × Shared :=
  (⟨shared.nextTarget⟩, { shared with nextTarget := shared.nextTarget + 1 })

def newObject (shared : Shared) (cls : ClassId) : Object × Shared :=
  (⟨shared.nextObject, cls⟩, { shared with nextObject := shared.nextObject + 1 })

/-- A lambda catches the returns of its own body. -/
def addClosure (shared : Shared) (body : ClosureBody) (binding : Binding) (kind : ClosureKind) :
    ClosureId × Shared :=
  let (target, shared) := shared.freshTarget
  let frame :=
    if kind = .lambda then { binding.frame with jumpTarget := some target } else binding.frame
  (shared.closures.size,
    { shared with closures :=
        shared.closures.push { body, binding := { binding with frame }, target, kind } })

def arity (shared : Shared) (closure : Closure) : Arity :=
  match closure.body with
  | .literal literal => literal.params.arity
  | .method method _ => (shared.library.method method).arity

def closureView (shared : Shared) (id : ClosureId) : ClosureView :=
  let closure := shared.closure id
  { kind := closure.kind
    arity := shared.arity closure
    isMethod := match closure.body with
      | .literal _ => false
      | .method .. => true }

def classView (shared : Shared) (id : ClassId) : ClassView :=
  let cls := shared.library.cls id
  ⟨cls.name, cls.isModule⟩

def addMethod (shared : Shared) (method : Target → Method) : MethodId × Shared :=
  let (target, shared) := shared.freshTarget
  let (id, library) := shared.library.addMethod (method target)
  (id, { shared with library })

/-- A copy of a method under an identity of its own. -/
def copyMethod (shared : Shared) (id : MethodId) (change : Method → Method) :
    MethodId × Shared :=
  shared.addMethod fun target => change ((shared.library.method id).renewed target)

def withCoreClasses (shared : Shared) : Shared :=
  let library := Core.classes.foldl (fun library c => (library.register c).2) shared.library
  { shared with library }

def install (shared : Shared) (entry : Core.Entry) : Shared :=
  let (method, shared) := shared.addMethod fun target =>
    ⟨entry.cls, entry.visibility, entry.config, target, .builtin entry.builtin⟩
  { shared with library := shared.library.defineMethod entry.cls entry.name method }

def withCoreMethods (shared : Shared) : Shared := Core.methods.foldl install shared

/-- A fresh engine. Targets are numbered from `firstTarget` on. -/
def start (config : Config) (backend : Backend) (hooks : List Hook) (firstTarget : Nat) :
    Shared :=
  let shared : Shared := { config, backend, nextTarget := firstTarget }
  let shared := shared.withCoreClasses.withCoreMethods
  { shared with monitor := hooks.foldl Monitor.add shared.monitor }

/-- A fresh context, with a root frame and an empty root scope. -/
def newContext (shared : Shared) (id : ContextId) : Context × Shared :=
  let (main, shared) := shared.newObject Core.object
  let (scope, memory) := shared.memory.addStatic {}
  let (env, memory) := memory.allocate scope []
  let root : Frame := { self := .object main, cls := some Core.object, visibility := .priv }
  ({ id, main, stack := .ofRoot root shared.config.depthLimit, scopes := [env] },
    { shared with memory })

end Shared

namespace State

def directory (state : State) : Directory where
  closure := state.shared.closureView
  cls := state.shared.classView
  isMain object := object.id == state.context.main.id

def view (state : State) (value : Value) : View := value.view state.directory

end State

end CallEngine
