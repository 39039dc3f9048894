import CallEngine.Memory
/-! From a source tree to one that runs: every declared scope gets its identity. -/
namespace CallEngine

/-- What a body declares. -/
structure ScopeDecl where
  vars : List String := []
  layout : Arity := .noArguments
deriving DecidableEq, Inhabited, Repr

abbrev Source := Tree ScopeDecl

abbrev Node := Tree StaticId

/-- Scopes are made in memory; a layout with more parameters than variables is a fault. -/
abbrev Resolver := EStateM Fault Memory

namespace Resolver

def enter (scope : StaticScope) : Resolver StaticId :=
  modifyGet (·.addStatic scope)

def enterClosure (parent : StaticId) (decl : ScopeDecl) : Resolver StaticId := do
  let outer := (← get).static parent
  enter { kind := .closure, enclosing := parent :: outer.enclosing, vars := decl.vars }

def enterMethod (decl : ScopeDecl) : Resolver StaticId :=
  match StaticScope.withLayout { vars := decl.vars } decl.layout with
  | .ok scope => enter scope
  | .error fault => throw fault

end Resolver

namespace Tree
open Resolver

mutual

/-- `parent` is the scope that the tree stands in. -/
def resolve (parent : StaticId) : Source → Resolver Node
  | nil => pure .nil
  | bool value => pure (.bool value)
  | int value => pure (.int value)
  | str value => pure (.str value)
  | array items => do return .array (← resolveAll parent items)
  | self => pure .self
  | localGet offset depth => pure (.localGet offset depth)
  | localSet offset depth value => do return .localSet offset depth (← resolve parent value)
  | globalGet name => pure (.globalGet name)
  | globalSet name value => do return .globalSet name (← resolve parent value)
  | seq items => do return .seq (← resolveAll parent items)
  | cond test yes no => do
    return .cond (← resolve parent test) (← resolve parent yes) (← resolveOption parent no)
  | binary op lhs rhs => do return .binary op (← resolve parent lhs) (← resolve parent rhs)
  | call receiver name args block => do
    return .call (← resolveOption parent receiver) name (← resolveAll parent args)
      (← resolveBlock parent block)
  | bareCall name => pure (.bareCall name)
  | yield args => do return .yield (← resolveAll parent args)
  | makeProc literal => do return .makeProc (← resolveLiteral parent literal)
  | makeLambda literal => do return .makeLambda (← resolveLiteral parent literal)
  | methodRef name => pure (.methodRef name)
  | doReturn value => do return .doReturn (← resolveOption parent value)
  | doBreak value => do return .doBreak (← resolveOption parent value)
  | doNext value => do return .doNext (← resolveOption parent value)
  | redo => pure .redo
  | retry => pure .retry
  | loop test body => do return .loop (← resolve parent test) (← resolve parent body)
  | rescue body handler => do
    return .rescue (← resolve parent body) (← resolve parent handler)
  | raise message => do return .raise (← resolve parent message)
  | define name decl params body => do
    let scope ← enterMethod decl
    return .define name scope (← resolveParams scope params) (← resolve scope body)
  | classBody name superclass isModule decl body => do
    let scope ← enterMethod decl
    return .classBody name superclass isModule scope (← resolve scope body)
  | constant name => pure (.constant name)
  | superCall => pure .superCall
  | blockGiven => pure .blockGiven

def resolveAll (parent : StaticId) : List Source → Resolver (List Node)
  | [] => pure []
  | item :: rest => do return (← resolve parent item) :: (← resolveAll parent rest)

def resolveOption (parent : StaticId) : Option Source → Resolver (Option Node)
  | none => pure none
  | some value => do return some (← resolve parent value)

def resolveLiteral (parent : StaticId) :
    Literal ScopeDecl Source → Resolver (Literal StaticId Node)
  | ⟨decl, params, body⟩ => do
    let scope ← enterClosure parent decl
    return ⟨scope, params, ← resolve scope body⟩

def resolveBlock (parent : StaticId) :
    BlockArg (Literal ScopeDecl Source) Source → Resolver (BlockArg (Literal StaticId Node) Node)
  | .absent => pure .absent
  | .literal literal => do return .literal (← resolveLiteral parent literal)
  | .pass value => do return .pass (← resolve parent value)

def resolveParams (scope : StaticId) : Params Source → Resolver (Params Node)
  | ⟨required, optional, rest, block⟩ => do
    return ⟨required, ← resolveOptional scope optional, rest, block⟩

def resolveOptional (scope : StaticId) :
    List (OptionalParam Source) → Resolver (List (OptionalParam Node))
  | [] => pure []
  | ⟨slot, fallback⟩ :: rest => do
    return ⟨slot, ← resolve scope fallback⟩ :: (← resolveOptional scope rest)

end

end Tree

end CallEngine
