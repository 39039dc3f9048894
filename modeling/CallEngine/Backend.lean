import CallEngine.Code
/-! Backends: whatever answers a request for code. -/
namespace CallEngine

inductive CompileError where
  | unsupported (method construct : String)
  | failed (method reason : String)
deriving DecidableEq, Inhabited, Repr

def CompileError.message : CompileError → String
  | unsupported method construct => s!"cannot compile `{method}`: {construct} is not supported"
  | failed method reason => s!"compilation of `{method}` failed: {reason}"

structure CompileRequest where
  name : String
  arity : Arity
  scope : StaticScope
  body : Node

/-- What comes of a request. A body that is compiled becomes code, and never anything else that could
run. -/
inductive Verdict where
  | compiled (code : Code)
  | refused (error : CompileError)
  | crashed

/-- A backend does nothing but answer: whatever it does on the way changes neither scopes nor anything
else of the engine. What it answers may depend on how many requests came before. -/
abbrev Backend := (asked : Nat) → CompileRequest → Verdict

namespace Backend

/-- The code that a body of the method `name` becomes. -/
def compile (name : String) (body : Node) : Except CompileError Code :=
  body.lower.mapError (.unsupported name)

/-- Compiles what has code and refuses the rest. -/
def lowering : Backend := fun _ request =>
  match compile request.name request.body with
  | .ok code => .compiled code
  | .error error => .refused error

/-- Every body becomes the same code. -/
def constant (code : Code) : Backend := fun _ _ => .compiled code

def refusing (reason : String) : Backend := fun _ request =>
  .refused (.failed request.name reason)

def crashing : Backend := fun _ _ => .crashed

end Backend

end CallEngine
