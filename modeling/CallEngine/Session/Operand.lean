import CallEngine.Engine
import CallEngine.Session.Command
/-! What the names and trees in a command stand for. -/
namespace CallEngine.Session

/-- What the steps of a session refer to by name. -/
structure Names where
  registers : Table Value := {}
  scopes : Table StaticId := {}

def classNamed (name : String) : Eval ClassId := do
  Eval.orRaise (← Eval.read (·.shared.library.constant name))

mutual

def Operand.value (names : Names) : Operand → Eval Value
  | .nil => pure .nil
  | .bool b => pure (.bool b)
  | .int n => pure (.int n)
  | .str s => pure (.str s)
  | .array items => return .array (← Operand.values names items).toArray
  | .register name => pure ((names.registers.get? name).getD .nil)
  | .main => return .object (← Eval.read (·.context.main))
  | .constant name => Eval.constantValue name
  | .fresh name => do Eval.newObject (← classNamed name)

def Operand.values (names : Names) : List Operand → Eval (List Value)
  | [] => pure []
  | item :: rest => do
    let value ← Operand.value names item
    return value :: (← Operand.values names rest)

end

def Operand.value? (names : Names) : Option Operand → Eval (Option Value)
  | none => pure none
  | some operand => return some (← operand.value names)

def classNamed? : Option String → Eval (Option ClassId)
  | none => pure none
  | some name => return some (← classNamed name)

def Names.closure (names : Names) (name : String) : Eval ClosureId :=
  Eval.requireProc ((names.registers.get? name).getD .nil)

def Names.closure? (names : Names) : Option String → Eval (Option ClosureId)
  | none => pure none
  | some name => return some (← names.closure name)

def Selector.find (selector : Selector) : Eval (Option MethodId) := do
  let cls ← classNamed selector.cls
  Eval.read fun s =>
    if selector.isSingleton then s.shared.library.searchSingleton cls selector.name
    else if selector.isOwn then s.shared.library.ownMethod cls selector.name
    else s.shared.library.searchMethod cls selector.name

/-- An empty scope for trees that stand alone. -/
def emptyScope : Resolver StaticId := Resolver.enter {}

def resolveAlone (source : Source) : Eval Node :=
  Engine.resolve do source.resolve (← emptyScope)

def resolveLiteral (literal : Literal ScopeDecl Source) : Eval (Literal StaticId Node) :=
  Engine.resolve do Tree.resolveLiteral (← emptyScope) literal

def MethodDecl.resolve (decl : MethodDecl) : Resolver Definition := do
  let scope ← Resolver.enterMethod decl.scope
  return ⟨scope, ← Tree.resolveParams scope decl.params, ← decl.body.resolve scope⟩

def resolveBlock (names : Names) : BlockArg (Literal ScopeDecl Source) Operand →
    Eval (BlockArg (Literal StaticId Node) Value)
  | .absent => pure .absent
  | .literal literal => return .literal (← resolveLiteral literal)
  | .pass value => return .pass (← value.value names)

end CallEngine.Session
