import CallEngine.Eval
/-! Loops and rescue clauses. A bound limits how often a body is run again; every repetition polls
for a request to stop first. -/
namespace CallEngine.Eval

/-- Runs a body until it ends otherwise than with redo. -/
def redoing (body : Eval Value) : Nat → Eval Outcome
  | 0 => throw .exhausted
  | bound + 1 => do
    match ← observe body with
    | .error .redo => do
      poll
      redoing body bound
    | outcome => pure outcome

/-- A while loop. Its value is that of the break which ends it, or nil. -/
def looping (test body : Eval Value) (bound : Nat) : Nat → Eval Value
  | 0 => throw .exhausted
  | iterations + 1 => do
    poll
    if (← test).isTruthy then
      match ← redoing body bound with
      | .ok _ | .error (.next _) => looping test body bound iterations
      | .error (.stop none value) => pure value
      | .error g => signal g
    else pure .nil

/-- Runs the handler on errors that can be rescued, and the body again if the handler retries. -/
def rescuing (body handler : Eval Value) : Nat → Eval Value
  | 0 => throw .exhausted
  | bound + 1 => do
    match ← observe body with
    | .error (.error e) =>
      if e.kind.isRescuable then do
        setGlobal "$!" (.str e.message)
        match ← observe handler with
        | .error .retry => do
          poll
          rescuing body handler bound
        | outcome => ofOutcome outcome
      else raise e
    | outcome => ofOutcome outcome

end CallEngine.Eval
