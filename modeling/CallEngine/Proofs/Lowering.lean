import CallEngine.Eval.Code
import CallEngine.Eval.Tree
/-! Code does what the tree it was lowered from does. -/
namespace CallEngine

/-- A sequence succeeds only if its first step does. -/
theorem Except.ok_of_bind {ε α β : Type} {first : Except ε α} {next : α → Except ε β} {b : β}
    (done : first >>= next = .ok b) : ∃ a, first = .ok a ∧ next a = .ok b := by
  cases first with
  | error => cases done
  | ok a => exact ⟨a, rfl, done⟩

namespace Tree

section performing

variable (bound : Nat) (perform : Performer)

mutual

/-- Equal as evaluations, for any bound and whatever acts lead to: the two never differ in a
value, an error, a signal or a state. -/
theorem execWith_lower (node : Node) {code : Code} (lowered : node.lower = .ok code) :
    code.execWith bound perform = node.evalWith bound perform := by
  cases node with
  | nil | bool | int | str | self | localGet | globalGet | bareCall | makeProc | makeLambda
  | methodRef | redo | constant | blockGiven =>
    cases lowered
    simp only [Code.execWith, evalWith]
  | array items =>
    obtain ⟨codes, first, last⟩ := Except.ok_of_bind lowered
    cases last
    simp only [Code.execWith, evalWith, execAll_lower items first]
  | localSet offset depth value =>
    obtain ⟨code, first, last⟩ := Except.ok_of_bind lowered
    cases last
    simp only [Code.execWith, evalWith, execWith_lower value first]
  | globalSet name value =>
    obtain ⟨code, first, last⟩ := Except.ok_of_bind lowered
    cases last
    simp only [Code.execWith, evalWith, execWith_lower value first]
  | seq items =>
    obtain ⟨codes, first, last⟩ := Except.ok_of_bind lowered
    cases last
    simp only [Code.execWith, evalWith, execLast_lower items first]
  | cond test yes no =>
    obtain ⟨test', first, rest⟩ := Except.ok_of_bind lowered
    obtain ⟨yes', second, rest⟩ := Except.ok_of_bind rest
    obtain ⟨no', third, last⟩ := Except.ok_of_bind rest
    cases last
    simp only [Code.execWith, evalWith, execWith_lower test first, execWith_lower yes second,
      execOperand_lower no third]
  | binary op lhs rhs =>
    obtain ⟨lhs', first, rest⟩ := Except.ok_of_bind lowered
    obtain ⟨rhs', second, last⟩ := Except.ok_of_bind rest
    cases last
    simp only [Code.execWith, evalWith, execWith_lower lhs first, execWith_lower rhs second]
  | call receiver name args block =>
    obtain ⟨receiver', first, rest⟩ := Except.ok_of_bind lowered
    obtain ⟨args', second, rest⟩ := Except.ok_of_bind rest
    obtain ⟨block', third, last⟩ := Except.ok_of_bind rest
    cases last
    simp only [Code.execWith, evalWith, execReceiver_lower receiver first, execAll_lower args second,
      execBlock_lower block third]
  | yield args =>
    obtain ⟨args', first, last⟩ := Except.ok_of_bind lowered
    cases last
    simp only [Code.execWith, evalWith, execAll_lower args first]
  | doReturn value | doBreak value | doNext value =>
    obtain ⟨value', first, last⟩ := Except.ok_of_bind lowered
    cases last
    simp only [Code.execWith, evalWith, execOperand_lower value first, Code.takeExit]
  | loop test body =>
    obtain ⟨test', first, rest⟩ := Except.ok_of_bind lowered
    obtain ⟨body', second, last⟩ := Except.ok_of_bind rest
    cases last
    simp only [Code.execWith, evalWith, execWith_lower test first, execWith_lower body second]
  | raise message =>
    obtain ⟨message', first, last⟩ := Except.ok_of_bind lowered
    cases last
    simp only [Code.execWith, evalWith, execWith_lower message first]
  | retry | rescue | define | classBody | superCall => cases lowered

theorem execAll_lower (items : List Node) {codes : List Code}
    (lowered : lowerAll items = .ok codes) :
    Code.execAll bound perform codes = evalAll bound perform items := by
  cases items with
  | nil =>
    cases lowered
    simp only [Code.execAll, evalAll]
  | cons item rest =>
    obtain ⟨item', first, others⟩ := Except.ok_of_bind lowered
    obtain ⟨rest', second, last⟩ := Except.ok_of_bind others
    cases last
    simp only [Code.execAll, evalAll, execWith_lower item first, execAll_lower rest second]

theorem execLast_lower (items : List Node) {codes : List Code}
    (lowered : lowerAll items = .ok codes) (value : Value) :
    Code.execLast bound perform value codes = evalLast bound perform value items := by
  cases items with
  | nil =>
    cases lowered
    simp only [Code.execLast, evalLast]
  | cons item rest =>
    obtain ⟨item', first, others⟩ := Except.ok_of_bind lowered
    obtain ⟨rest', second, last⟩ := Except.ok_of_bind others
    cases last
    simp only [Code.execLast, evalLast, execWith_lower item first, execLast_lower rest second]

theorem execOperand_lower (operand : Option Node) {code : Code}
    (lowered : lowerOperand operand = .ok code) :
    code.execWith bound perform = evalOperand bound perform operand := by
  cases operand with
  | none =>
    cases lowered
    simp only [Code.execWith, evalOperand]
  | some value =>
    simp only [evalOperand]
    exact execWith_lower value lowered

theorem execReceiver_lower (receiver : Option Node) {code : Option Code}
    (lowered : lowerOption receiver = .ok code) :
    Code.execReceiver bound perform code = evalReceiver bound perform receiver := by
  cases receiver with
  | none =>
    cases lowered
    simp only [Code.execReceiver, evalReceiver]
  | some value =>
    obtain ⟨value', first, last⟩ := Except.ok_of_bind lowered
    cases last
    simp only [Code.execReceiver, evalReceiver, execWith_lower value first]

theorem execBlock_lower (block : BlockArg (Literal StaticId Node) Node)
    {code : BlockArg (Literal StaticId Node) Code} (lowered : lowerBlock block = .ok code) :
    Code.execBlock bound perform code = evalBlock bound perform block := by
  cases block with
  | absent | literal =>
    cases lowered
    simp only [Code.execBlock, evalBlock]
  | pass value =>
    obtain ⟨value', first, last⟩ := Except.ok_of_bind lowered
    cases last
    simp only [Code.execBlock, evalBlock, execWith_lower value first]

end

end performing

/-- Equal for any responder. -/
theorem exec_lower (bound : Nat) (ask : Responder) (node : Node) {code : Code}
    (lowered : node.lower = .ok code) : code.exec bound ask = node.eval bound ask :=
  node.execWith_lower bound (Act.perform ask) lowered

end Tree

end CallEngine
