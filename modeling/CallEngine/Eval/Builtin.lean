import CallEngine.Eval.Call
/-! The built-in methods. They catch no signals. -/
namespace CallEngine

namespace Eval

def requireBlock (block : Option ClosureId) : Eval ClosureId :=
  match block with
  | some id => pure id
  | none => raise .noBlockGiven

def wrongReceiver {α : Type} (expected : String) (found : Value) : Eval α :=
  raiseWith fun s => .wrongReceiver s.directory expected found

def requireInt (value : Value) : Eval Int64 :=
  match value with
  | .int n => pure n
  | other => wrongReceiver "Integer" other

def requireArray (value : Value) : Eval (Array Value) :=
  match value with
  | .array items => pure items
  | other => wrongReceiver "Array" other

def requireProc (value : Value) : Eval ClosureId :=
  match value with
  | .proc id => pure id
  | other => wrongReceiver "Proc" other

/-- Modules have no instances. -/
def requireClass (value : Value) : Eval ClassId := do
  match value with
  | .cls id =>
    if ← read fun s => (s.shared.library.cls id).isModule then wrongReceiver "Class" value
    else pure id
  | other => wrongReceiver "Class" other

variable (ask : Responder)

/-- Yields nil for ever. -/
def yieldForever (block : ClosureId) : Nat → Eval Value
  | 0 => throw .exhausted
  | bound + 1 => do
    poll
    let _ ← ask (.yield block { value := .nil })
    yieldForever block bound

/-- Yields the items in turn; `left` of them are still to come. -/
def yieldItems (block : ClosureId) (items : Array Value) : (left : Nat) → Eval Unit
  | 0 => pure ()
  | left + 1 => do
    poll
    let _ ← ask (.yield block { value := items.getD (items.size - (left + 1)) .nil })
    yieldItems block items left

/-- Yields the numbers from `start` on, `count` of them. -/
def yieldCount (block : ClosureId) (start : Int64) : Nat → Eval Unit
  | 0 => pure ()
  | count + 1 => do
    poll
    let _ ← ask (.yield block { value := .int start })
    yieldCount block (start + 1) count

/-- A new instance, set up by its initializer if its class has one. -/
def instantiate (cls : ClassId) (args : List Value) (block : Option ClosureId) : Eval Value := do
  let object ← newObject cls
  match ← read (·.shared.library.searchMethod cls "initialize") with
  | some id => do
    let _ ← ask (.invoke id ⟨object, "initialize", args, block⟩)
    return object
  | none =>
    if args.isEmpty then return object
    else raise (.arityMismatch ⟨args.length, 0⟩)

/-- Gives a class its own copy of a method it has or inherits. -/
def changeVisibility (cls : ClassId) (visibility : Visibility) (name : String) : Eval Unit := do
  match ← read (·.shared.library.searchMethod cls name) with
  | none => raiseWith fun s => .noMethod s.directory name (.cls cls)
  | some id =>
    if visibility = .moduleFunction then do
      let copy ← copyMethod id fun m => { m with owner := cls, visibility := .priv }
      let singleton ← copyMethod id fun m =>
        { m with owner := cls, visibility := .pub, config := .moduleFunction }
      bindSingleton cls name singleton
      bindMethod cls name copy
    else do
      let copy ← copyMethod id fun m => { m with owner := cls, visibility }
      bindMethod cls name copy

def changeAll (cls : ClassId) (visibility : Visibility) : List Value → Eval Unit
  | [] => pure ()
  | value :: rest => do
    changeVisibility cls visibility (← view value).text
    changeAll cls visibility rest

/-- Without names, the visibility of what the current frame defines from now on. -/
def applyVisibility (visibility : Visibility) (args : List Value) : Eval Value := do
  if args.isEmpty then setVisibility visibility
  else changeAll (← currentClass) visibility args
  return .nil

end Eval

open Eval in
def Builtin.run (bound : Nat) (ask : Responder) (builtin : Builtin) (call : Call) : Eval Value := do
  match builtin with
  | .inspect => return .str (← view call.self).inspect
  | .loop => do yieldForever ask (← requireBlock call.block) bound
  | .setVisibility visibility => applyVisibility visibility call.args
  | .new => do instantiate ask (← requireClass call.self) call.args call.block
  | .each => do
    let items ← requireArray call.self
    yieldItems ask (← requireBlock call.block) items items.size
    return call.self
  | .size => return .int (Int64.ofNat (← requireArray call.self).size)
  | .times => do
    let count ← requireInt call.self
    yieldCount ask (← requireBlock call.block) 0 count.toInt.toNat
    return call.self
  | .callClosure => do Eval.callClosure ask (← requireProc call.self) call.args
  | .arity => do
    let called ← closure (← requireProc call.self)
    return .int (Int64.ofInt (← read (·.shared.arity called)).number)
  | .isLambda => return .bool ((← closure (← requireProc call.self)).kind = .lambda)

end CallEngine
