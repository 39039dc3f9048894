import CallEngine.Eval
/-! Binding arguments: yielded values to the parameters of a closure, and the arguments of a call to
the parameters of a method. -/
namespace CallEngine

/-- The array that is the only item of another. -/
def onlyArray? (items : Array Value) : Option (Array Value) :=
  if items.size = 1 then
    match items.getD 0 .nil with
    | .array inner => some inner
    | _ => none
  else none

/-- The values that the parameters of a closure which spreads its value are taken from. -/
def spreadValues (value : Value) (isPacked : Bool) : Array Value :=
  match value, isPacked with
  | .array items, true => (onlyArray? items).getD items
  | .array items, false => items
  | other, _ => #[other]

def wholeValue (value : Value) (isPacked : Bool) : Value :=
  match value, isPacked with
  | .array items, true => if items.size ≤ 1 then items.getD 0 .nil else .array items
  | other, _ => other

def gatheredValue (value : Value) (isPacked : Bool) : Value :=
  .array (spreadValues value isPacked)

namespace Eval

/-- Writes the values from `start` on to the slots in turn, nil where there are too few. -/
def writeSlots (env : Env) (values : Array Value) (start : Nat) : List Nat → Eval Unit
  | [] => pure ()
  | slot :: slots => do
    writeVariable env slot 0 (values.getD start .nil)
    writeSlots env values (start + 1) slots

def writeOption (env : Env) (slot : Option Nat) (value : Value) : Eval Unit :=
  match slot with
  | some slot => writeVariable env slot 0 value
  | none => pure ()

/-- Binds what is yielded to the parameters of a closure. -/
def assign (env : Env) (params : ClosureParams) (value : Value) (isPacked : Bool) : Eval Unit :=
  match params.strategy with
  | .ignore => pure ()
  | .spread => do
    let values := spreadValues value isPacked
    writeSlots env values 0 params.slots
    match params.rest with
    | some slot => writeVariable env slot 0 (.array (values.extract params.slots.length))
    | none => pure ()
  | .whole => writeOption env params.slots.head? (wholeValue value isPacked)
  | .gather => writeOption env params.rest (gatheredValue value isPacked)

/-- Binds the optional parameters, to fallbacks once the arguments run out, and gives the
arguments that are left. -/
def bindOptional (eval : Node → Eval Value) (env : Env) :
    List (OptionalParam Node) → List Value → Eval (List Value)
  | [], args => pure args
  | param :: params, [] => do
    writeVariable env param.slot 0 (← eval param.fallback)
    bindOptional eval env params []
  | param :: params, arg :: args => do
    writeVariable env param.slot 0 arg
    bindOptional eval env params args

/-- Binds arguments that passed the arity check. The block comes first, so that fallbacks can
refer to it. -/
def bindArguments (eval : Node → Eval Value) (params : Params Node) (args : List Value)
    (block : Option ClosureId) : Eval Unit := do
  let env ← currentEnv
  writeOption env params.block (block.elim .nil .proc)
  let required := min params.required args.length
  writeArguments env args required
  let rest ← bindOptional eval env params.optional (args.drop required)
  match params.rest with
  | .named slot => writeVariable env slot 0 (.array rest.toArray)
  | _ => pure ()

end Eval

end CallEngine
