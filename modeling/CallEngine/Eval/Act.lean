import CallEngine.Eval.Call
/-! What bodies do beside computing: calls, yields, returns, definitions. Trees and code do the same things
and leave it to a performer to do them. -/
namespace CallEngine

inductive Act where
  | call (receiver : Value) (name : String) (args : List Value) (block : Option ClosureId)
      (type : CallType)
  | yield (args : List Value)
  | superCall
  | makeProc (literal : Literal StaticId Node) (kind : ClosureKind)
  | methodRef (name : String)
  | doReturn (value : Value)
  | define (name : String) (definition : Definition)

abbrev Performer := Act → Eval Value

open Eval in
/-- Calls and yields are asked of a responder. -/
def Act.perform (ask : Responder) : Performer
  | call receiver name args block type => callMethod ask receiver name args block type
  | yield args => yieldArgs ask args
  | superCall => Eval.superCall ask
  | makeProc literal kind => Eval.makeProc literal kind
  | methodRef name => methodProc name
  | doReturn value => returnValue value
  | define name definition => defineMethod name definition

end CallEngine
