import CallEngine.Arity
/-! Bodies of methods and closures as trees.

A tree carries a scope annotation of type `σ` wherever a body of its own begins. In a source tree
it is what the scope declares; in a tree that runs it is the scope's identity. Variables are
addressed by an offset in a scope and the number of scopes to step outwards. -/
namespace CallEngine

inductive BinaryOp where
  | add | sub | mul | lt | gt | eq | ne
deriving DecidableEq, Inhabited, Repr

def BinaryOp.symbol : BinaryOp → String
  | add => "+"
  | sub => "-"
  | mul => "*"
  | lt => "<"
  | gt => ">"
  | eq => "=="
  | ne => "!="

/-- How a closure takes what is yielded to it. -/
inductive Strategy where
  | ignore
  /-- Spread a list over the parameters. -/
  | spread
  /-- One argument as itself, several as a list. -/
  | whole
  /-- Always a list, one level of nesting removed. -/
  | gather
deriving DecidableEq, Inhabited, Repr

structure ClosureParams where
  strategy : Strategy := .ignore
  slots : List Nat := []
  rest : Option Nat := none
deriving DecidableEq, Inhabited, Repr

def ClosureParams.arity (params : ClosureParams) : Arity :=
  match params.strategy with
  | .ignore | .gather => .anyArguments
  | .whole => .oneArgument
  | .spread => ⟨params.slots.length, 0, params.rest.isSome⟩

/-- A closure literal. -/
structure Literal (σ node : Type) where
  scope : σ
  params : ClosureParams
  body : node

/-- Where a call takes its block from. -/
inductive BlockArg (literal node : Type) where
  | absent
  | literal (literal : literal)
  /-- An existing closure, or nil for none. -/
  | pass (value : node)

structure OptionalParam (node : Type) where
  slot : Nat
  fallback : node

inductive RestParam where
  | absent
  /-- Further arguments are accepted and dropped. -/
  | anonymous
  | named (slot : Nat)
deriving DecidableEq, Inhabited, Repr

/-- Required parameters take the first slots. -/
structure Params (node : Type) where
  required : Nat := 0
  optional : List (OptionalParam node) := []
  rest : RestParam := .absent
  block : Option Nat := none
deriving Inhabited

def Params.arity {node : Type} (params : Params node) : Arity :=
  ⟨params.required, params.optional.length, params.rest != .absent⟩

inductive Tree (σ : Type) where
  | nil
  | bool (value : Bool)
  | int (value : Int64)
  | str (value : String)
  | array (items : List (Tree σ))
  | self
  | localGet (offset depth : Nat)
  | localSet (offset depth : Nat) (value : Tree σ)
  | globalGet (name : String)
  | globalSet (name : String) (value : Tree σ)
  | seq (items : List (Tree σ))
  | cond (test yes : Tree σ) (no : Option (Tree σ))
  | binary (op : BinaryOp) (lhs rhs : Tree σ)
  /-- Without a receiver the call goes to the current self. -/
  | call (receiver : Option (Tree σ)) (name : String) (args : List (Tree σ))
      (block : BlockArg (Literal σ (Tree σ)) (Tree σ))
  /-- A bare name that is no variable. -/
  | bareCall (name : String)
  | yield (args : List (Tree σ))
  | makeProc (literal : Literal σ (Tree σ))
  | makeLambda (literal : Literal σ (Tree σ))
  | methodRef (name : String)
  | doReturn (value : Option (Tree σ))
  | doBreak (value : Option (Tree σ))
  | doNext (value : Option (Tree σ))
  | redo
  | retry
  | loop (test body : Tree σ)
  | rescue (body handler : Tree σ)
  | raise (message : Tree σ)
  | define (name : String) (scope : σ) (params : Params (Tree σ)) (body : Tree σ)
  /-- Opens a class or module, making it if there is none of that name. -/
  | classBody (name : String) (superclass : Option String) (isModule : Bool) (scope : σ)
      (body : Tree σ)
  | constant (name : String)
  /-- Sends the current method's arguments to the definition above it. -/
  | superCall
  | blockGiven

namespace Tree

instance {σ : Type} : Inhabited (Tree σ) := ⟨.nil⟩

/-- What a reader calls this kind of node. -/
def label {σ : Type} : Tree σ → String
  | nil => "nil"
  | bool true => "true"
  | bool false => "false"
  | int _ => "integer"
  | str _ => "string"
  | array _ => "array"
  | self => "self"
  | localGet .. => "local variable"
  | localSet .. => "local assignment"
  | globalGet _ => "global variable"
  | globalSet .. => "global assignment"
  | seq _ => "sequence"
  | cond .. => "if"
  | binary .. => "binary operation"
  | call .. => "call"
  | bareCall _ => "variable call"
  | yield _ => "yield"
  | makeProc _ => "proc"
  | makeLambda _ => "lambda"
  | methodRef _ => "method reference"
  | doReturn _ => "return"
  | doBreak _ => "break"
  | doNext _ => "next"
  | redo => "redo"
  | retry => "retry"
  | loop .. => "while"
  | rescue .. => "rescue"
  | raise _ => "raise"
  | define .. => "def"
  | classBody _ _ isModule _ _ => if isModule then "module" else "class"
  | constant _ => "constant"
  | superCall => "super"
  | blockGiven => "block_given?"

end Tree

end CallEngine
