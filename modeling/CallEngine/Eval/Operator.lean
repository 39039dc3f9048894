import CallEngine.Eval
/-! Binary operators. Integers have arithmetic and order, `+` also joins texts and lists, and any
two values can be compared for equality. -/
namespace CallEngine

/-- Nothing if the operator does not apply. -/
def BinaryOp.apply? : BinaryOp → Value → Value → Option Value
  | eq, left, right => some (.bool (left.same right))
  | ne, left, right => some (.bool !left.same right)
  | add, .int l, .int r => some (.int (l + r))
  | sub, .int l, .int r => some (.int (l - r))
  | mul, .int l, .int r => some (.int (l * r))
  | lt, .int l, .int r => some (.bool (l < r))
  | gt, .int l, .int r => some (.bool (r < l))
  | add, .str l, .str r => some (.str (l ++ r))
  | add, .array l, .array r => some (.array (l ++ r))
  | _, _, _ => none

def Eval.applyBinary (op : BinaryOp) (left right : Value) : Eval Value :=
  match op.apply? left right with
  | some value => pure value
  | none => raiseWith fun s => .binaryTypeMismatch s.directory op left right

end CallEngine
