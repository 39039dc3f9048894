import CallEngine.Eval
import CallEngine.Session.Outline
import CallEngine.Session.Reply
/-! Looking at methods, closures, classes and values. -/
namespace CallEngine.Session

/-- The label of a tree that stands alone, and why it has no code as the body of a method, if it
has none. -/
def verdict (name : String) (source : Source) : Except Fault (String × Option String) :=
  let resolver : Resolver Node := do source.resolve (← Resolver.enter {})
  match resolver {} with
  | .error fault _ => .error fault
  | .ok node _ =>
    .ok (node.label, match Backend.compile name node with
      | .ok _ => none
      | .error error => some error.message)

def viewMethod (id : MethodId) : Eval MethodView := Eval.read fun s =>
  let method := s.shared.library.method id
  { owner := (s.shared.library.cls method.owner).name
    visibility := method.visibility
    config := method.config
    arity := method.arity
    body := match method.body with
      | .interpreted definition promotion =>
        .interpreted definition.body.label (s.shared.memory.static definition.scope).size
          promotion.state
      | .compiled _ params _ => .compiled (Method.compiledOutline params.arity)
      | .builtin _ => .builtin }

def viewFrame (frame : Frame) : Eval FrameView := Eval.read fun s => frame.view s.directory

def targetActive (target : Option Target) : Eval (Option Bool) :=
  Eval.read fun s => target.map s.context.stack.isActive

def viewClosure (id : ClosureId) : Eval CapturedView := do
  let closure ← Eval.closure id
  let binding := closure.binding
  let frame ← viewFrame binding.frame
  let targetActive ← targetActive binding.frame.jumpTarget
  Eval.read fun s =>
    { kind := closure.kind
      arity := s.shared.arity closure
      body := match closure.body with
        | .literal literal => literal.body.label
        | .method method _ =>
          match (s.shared.library.method method).body with
          | .builtin _ => "native method"
          | _ => "method"
      self := s.view binding.self
      className := binding.cls.map fun c => (s.shared.library.cls c).name
      visibility := binding.visibility
      frame
      chain := binding.env.map fun cell => (s.shared.memory.values cell).map s.view
      args := (s.shared.memory.arguments binding.env).map s.view
      isLive := s.context.liveLiterals.contains closure.target
      targetActive }

def describe (value : Value) : Eval Description := do
  let directory ← Eval.read (·.directory)
  let view := value.view directory
  return {
    inspect := view.inspect
    text := view.text
    describe := value.describe directory
    typeName := value.typeName directory
    isTruthy := value.isTruthy
    isNil := value = .nil
    int := match value with
      | .int n => some n
      | _ => none
    length := match value with
      | .array items => some items.size
      | _ => none
    isProc := match value with
      | .proc _ => true
      | _ => false }

def viewClass (id : ClassId) : Eval Info := Eval.read fun s =>
  let cls := s.shared.library.cls id
  .cls ((s.shared.library.ancestors id).map fun c => (s.shared.library.cls c).name) cls.isModule
    cls.outline

end CallEngine.Session
