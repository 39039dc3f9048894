/-! Reading a count: decimal digits after at most one plus sign, below a bound. -/
namespace CallEngine.Text

def digitValue? (c : Char) : Option Nat :=
  if '0' ≤ c ∧ c ≤ '9' then some (c.toNat - '0'.toNat) else none

/-- The number that the digits extend `value` to, or nothing at a character that is no digit. -/
def digitsFrom? (value : Nat) : List Char → Option Nat
  | [] => some value
  | c :: rest => (digitValue? c).bind fun digit => digitsFrom? (value * 10 + digit) rest

/-- Nothing if there is no digit, a stray character, or the number is not below `bound`. -/
def unsigned? (bound : Nat) (cs : List Char) : Option Nat :=
  let digits := match cs with
    | '+' :: rest => rest
    | all => all
  if digits.isEmpty then none
  else (digitsFrom? 0 digits).filter (· < bound)

end CallEngine.Text
