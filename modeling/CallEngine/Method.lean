import CallEngine.Frame
import CallEngine.Promotion
/-! Methods: who may call them, what entering them sets up, and their bodies. -/
namespace CallEngine

/-- What entering a body sets up. -/
inductive CallConfig where
  | frameAndScope
  | frameOnly
  /-- The body runs in its caller's frame and scope. -/
  | inPlace
  /-- A second frame below the first has the module as its self. -/
  | moduleFunction
  /-- Arguments are not counted. -/
  | block
deriving DecidableEq, Inhabited, Repr

namespace CallConfig

def pushesFrame (config : CallConfig) : Bool := config != inPlace

def pushesScope : CallConfig → Bool
  | frameAndScope | moduleFunction | block => true
  | frameOnly | inPlace => false

def checksArity (config : CallConfig) : Bool := config != block

def name : CallConfig → String
  | frameAndScope => "FrameAndScope"
  | frameOnly => "FrameOnly"
  | inPlace => "NoFrameNoScope"
  | moduleFunction => "ModuleFunction"
  | block => "Block"

end CallConfig

/-- Bodies that come with the engine. -/
inductive Builtin where
  | inspect
  | loop
  | setVisibility (visibility : Visibility)
  | new
  | each
  | size
  | times
  | callClosure
  | arity
  | isLambda
deriving DecidableEq, Inhabited, Repr

def Builtin.params : Builtin → Arity
  | setVisibility _ | new | callClosure => .anyArguments
  | _ => .noArguments

/-- The tree of a method, with its scope and parameters. -/
structure Definition where
  scope : StaticId
  params : Params Node
  body : Node
deriving Inhabited

inductive MethodBody where
  | interpreted (definition : Definition) (promotion : Promotion)
  | compiled (scope : StaticId) (params : Params Node) (code : Code)
  | builtin (builtin : Builtin)

instance : Inhabited MethodBody := ⟨.builtin default⟩

structure Method where
  owner : ClassId
  visibility : Visibility
  config : CallConfig
  /-- What a return in the body is aimed at. -/
  target : Target
  body : MethodBody
deriving Inhabited

namespace Method

def arity (method : Method) : Arity :=
  match method.body with
  | .interpreted definition _ => definition.params.arity
  | .compiled _ params _ => params.arity
  | .builtin builtin => builtin.params

/-- A copy shares the body but starts its own count of calls. -/
def renewed (method : Method) (target : Target) : Method :=
  { method with
    target
    body := match method.body with
      | .interpreted definition _ => .interpreted definition {}
      | other => other }

def promotionState (method : Method) : Option PromotionState :=
  match method.body with
  | .interpreted _ promotion => some promotion.state
  | _ => none

end Method

end CallEngine
