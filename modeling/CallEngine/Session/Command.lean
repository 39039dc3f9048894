import CallEngine.State
/-! What a session can be told to do. -/
namespace CallEngine.Session

/-- A value as a command gives it. -/
inductive Operand where
  | nil
  | bool (value : Bool)
  | int (value : Int64)
  | str (value : String)
  | array (items : List Operand)
  | register (name : String)
  /-- The main object of the command's context. -/
  | main
  | constant (name : String)
  /-- A new instance that was not initialized. -/
  | fresh (className : String)

/-- Which method is meant. -/
structure Selector where
  cls : String
  name : String
  isSingleton : Bool := false
  /-- Leaves out what the class inherits. -/
  isOwn : Bool := false

structure MethodDecl where
  name : String
  scope : ScopeDecl
  params : Params Source
  body : Source

/-- A body to enter by hand. -/
structure Entry where
  config : CallConfig
  arity : Arity
  argCount : Nat
  owner : Option String
  self : Operand
  name : String
  block : Option String
  /-- The variables of the scope to enter, if there is one. -/
  vars : Option (List String)
  hasTarget : Bool
  isBuiltin : Bool
  body : Option Source

inductive Command where
  /-- A scope that is named is made once and remembered. -/
  | run (body : Source) (vars : List String) (scope : Option String)
  | declare (scope name : String)
  | eval (body : Source)
  | send (receiver : Operand) (name : String) (args : List Operand)
  | dispatch (receiver : Operand) (name : String) (args : List Operand)
      (block : BlockArg (Literal ScopeDecl Source) Operand) (type : CallType)
  | invoke (selector : Selector) (receiver : Operand) (args : List Operand)
      (block : Option String) (callName : Option String)
  | method (selector : Selector)
  | define (cls : String) (decl : MethodDecl) (visibility : Visibility)
      (config : Option CallConfig) (isSingleton isCompiled : Bool)
  | copyMethod (selector : Selector) (toClass toName : String) (keepsOwner : Bool)
      (visibility : Option Visibility) (config : Option CallConfig) (toSingleton : Bool)
  | makeClosure (literal : Literal ScopeDecl Source) (kind : ClosureKind)
  | makeMethodClosure (selector : Selector) (callName : Option String)
  | callClosure (closure : String) (args : List Operand)
  | yield (closure : String) (value : Operand) (self : Option Operand) (cls : Option String)
      (isPacked : Bool)
  | cloneClosure (closure : String)
  | closure (closure : String)
  | setCaptured (closure : String) (offset depth : Nat) (value : Operand)
  | sameClosure (left right : String)
  | defineClass (name : String) (superclass : Option String)
  | defineModule (name : String)
  | openClass (name : String) (superclass : Option String) (isModule : Bool)
  | cls (cls : String)
  | inherits (cls ancestor : String)
  | classOf (value : Operand)
  | describe (value : Operand)
  | binary (op : BinaryOp) (left right : Operand)
  | globals (names : List String)
  | setGlobal (name : String) (value : Operand)
  | interrupt
  | poll
  | frame
  | outline
  | addHook (hook : Hook)
  | removeHook (id : Nat)
  | enter (entry : Entry)

structure Step where
  command : Command
  context : ContextId := 0
  /-- The register that takes the value. -/
  register : Option String := none

end CallEngine.Session
