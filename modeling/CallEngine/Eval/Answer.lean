import CallEngine.Eval.Arguments
import CallEngine.Eval.Builtin
import CallEngine.Eval.Code
import CallEngine.Eval.Tree
/-! Running methods and closures, and the evaluator that ties trees, code and built-in methods
together. -/
namespace CallEngine

/-- Counts a call of the method and gives the code to run, if it has some by now. -/
def State.promote (s : State) (id : MethodId) (name : String) : Option Code × State :=
  let method := s.shared.library.method id
  match method.body with
  | .interpreted definition promotion =>
    let request : CompileRequest :=
      { name, arity := definition.params.arity, body := definition.body,
        scope := s.shared.memory.static definition.scope }
    let (promotion, stats) :=
      promotion.advance s.shared.config s.shared.backend id request s.shared.stats
    let method := { method with body := .interpreted definition promotion }
    (promotion.code,
      { s with shared := { s.shared with
          stats, library := s.shared.library.setMethod id method } })
  | _ => (none, s)

/-- The frame of one run of a closure. -/
def Closure.frame (closure : Closure) (delivery : Delivery) : Frame :=
  { closure.binding.frame.duplicate with
    self := delivery.self.getD closure.binding.self
    cls := delivery.cls <|> closure.binding.cls
    visibility := closure.binding.visibility
    activation := if closure.kind = .lambda then some closure.target else none }

/-- The arguments that a method which was made a closure gets. -/
def Delivery.args (delivery : Delivery) : List Value :=
  match delivery.value, delivery.isPacked with
  | .array items, true => items.toList
  | value, _ => [value]

def Method.invocation (method : Method) (call : Call) : Invocation where
  self := call.self
  owner := some method.owner
  name := call.name
  arity := method.arity
  argCount := call.args.length
  block := call.block
  scope := match method.body with
    | .interpreted definition _ => some definition.scope
    | .compiled scope _ _ => some scope
    | .builtin _ => none
  target := match method.body with
    | .builtin _ => none
    | _ => some method.target
  isBuiltin := match method.body with
    | .builtin _ => true
    | _ => false

namespace Eval

variable (bound : Nat) (ask : Responder)

/-- Runs a body as a method: its own returns end it, and errors that leave it say where. -/
def runBody (method : Method) (params : Params Node) (call : Call) (body : Eval Value) :
    Eval Value :=
  entering method.config (method.invocation call) do
    let outcome ← observe do
      bindArguments (Tree.eval bound ask) params call.args call.block
      body
    ofOutcome (← read fun s => (outcome.atMethod method.target).traced s.context.stack)

/-- Code carries no events, so it is not run while hooks are registered. -/
def codeToRun (id : MethodId) (name : String) : Eval (Option Code) := do
  let code ← modifyGet (·.promote id name)
  if ← read (·.shared.monitor.isActive) then pure none else pure code

def invoke (id : MethodId) (call : Call) : Eval Value := do
  let called ← method id
  match called.body with
  | .interpreted definition _ => do
    match ← codeToRun id call.name with
    | some code => runBody bound ask called definition.params call (code.exec bound ask)
    | none => runBody bound ask called definition.params call (definition.body.eval bound ask)
  | .compiled _ params code => runBody bound ask called params call (code.exec bound ask)
  | .builtin builtin => entering called.config (called.invocation call) (builtin.run bound ask call)

def yieldLiteral (closure : Closure) (literal : Literal StaticId Node) (delivery : Delivery) :
    Eval Value := do
  let env ← enterScope literal.scope closure.binding.env
  withFrame (closure.frame delivery) <| withScope env do
    assign env literal.params delivery.value delivery.isPacked
    let outcome ← redoing (literal.body.eval bound ask) bound
    ofOutcome (outcome.atClosure closure.target closure.kind)

def yieldTo (id : ClosureId) (delivery : Delivery) : Eval Value := do
  let yielded ← closure id
  match yielded.body with
  | .literal literal => yieldLiteral bound ask yielded literal delivery
  | .method id name =>
    ask (.invoke id ⟨delivery.self.getD yielded.binding.self, name, delivery.args, none⟩)

def respond : Responder
  | .invoke id call => invoke bound ask id call
  | .yield id delivery => yieldTo bound ask id delivery

/-- The evaluator, with at most `bound` calls and yields inside one another. -/
def answer : Nat → Responder
  | 0 => fun _ => throw .exhausted
  | bound + 1 => respond bound (answer bound)

end Eval

end CallEngine
