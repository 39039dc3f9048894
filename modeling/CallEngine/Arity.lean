/-! How many arguments a callable accepts. -/
namespace CallEngine

/-- Counts are machine words; a sum that does not fit stops here. -/
def largestCount : Nat := UInt64.size - 1

/-- Arity numbers are signed machine words. -/
def largestArityNumber : Nat := UInt64.size / 2 - 1

structure Arity where
  required : Nat
  optional : Nat
  rest : Bool
deriving DecidableEq, Inhabited, Repr

/-- `expected` is the bound that was missed: the least count when too few arguments were
given, the greatest when too many. -/
structure ArityError where
  got : Nat
  expected : Nat
deriving DecidableEq, Repr

def ArityError.message (e : ArityError) : String :=
  s!"wrong number of arguments ({e.got} for {e.expected})"

namespace Arity

def exactly (required : Nat) : Arity := ⟨required, 0, false⟩

def noArguments : Arity := exactly 0

def oneArgument : Arity := exactly 1

def anyArguments : Arity := ⟨0, 0, true⟩

def isFixed (a : Arity) : Bool := a.optional == 0 && !a.rest

def max (a : Arity) : Option Nat :=
  if a.rest then none else some (min (a.required + a.optional) largestCount)

/-- `n` for a fixed count `n`, and `-(required + 1)` otherwise. -/
def number (a : Arity) : Int :=
  let required := min a.required largestArityNumber
  if a.isFixed then required else -(min (required + 1) largestArityNumber : Nat)

def check (a : Arity) (got : Nat) : Except ArityError Unit :=
  if got < a.required then .error ⟨got, a.required⟩
  else match a.max with
    | none => .ok ()
    | some most => if most < got then .error ⟨got, most⟩ else .ok ()

end Arity

end CallEngine
