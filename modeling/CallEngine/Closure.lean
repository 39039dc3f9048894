import CallEngine.Library
/-! Closures: a body together with the place where it was made. -/
namespace CallEngine

/-- What a closure remembers of the place where it was made. The frame is a copy; the cells of
the environment are shared. -/
structure Binding where
  self : Value
  frame : Frame
  visibility : Visibility
  cls : Option ClassId
  env : Env
deriving DecidableEq, Inhabited

inductive ClosureBody where
  | literal (literal : Literal StaticId Node)
  /-- A method under the name it is called by. -/
  | method (method : MethodId) (name : String)

instance : Inhabited ClosureBody := ⟨.method default default⟩

structure Closure where
  body : ClosureBody
  binding : Binding
  target : Target
  kind : ClosureKind
deriving Inhabited

end CallEngine
