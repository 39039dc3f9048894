import CallEngine.Proofs.Control
import CallEngine.Proofs.Evolution
/-! Relations between evaluations that the syntax keeps. Trees and code relate two performers as they
relate what the performers do: there is one rule for each thing that a body can do beside that. -/
namespace CallEngine
open Eval

/-- A relation between evaluations, whatever they give. -/
abbrev EvalRelation := ∀ ⦃α : Type⦄, Eval α → Eval α → Prop

/-- What evaluations that read and write variables have. -/
structure Storage (P : EvalProperty) : Prop where
  pure {α : Type} (a : α) : P (Pure.pure a)
  bind {α β : Type} {x : Eval α} {f : α → Eval β} : P x → (∀ a, P (f a)) → P (x >>= f)
  read {α : Type} (view : Memory → α) : P (Eval.read fun s => view s.shared.memory)
  fault {α : Type} (fault : Fault) : P (throw (.fault fault) : Eval α)
  memory {α : Type} {f : Memory → α × Memory} : (∀ m : Memory, m.Evolves (f m).2) →
    P (modifyGet fun s : State =>
      ((f s.shared.memory).1, { s with shared.memory := (f s.shared.memory).2 }))

namespace Storage

variable {P : EvalProperty} (h : Storage P)
include h

theorem orFault {α : Type} (result : Except Fault α) : P (Eval.orFault result) := by
  cases result with
  | ok a => exact h.pure a
  | error fault => exact h.fault fault

theorem enterScope (scope : StaticId) (parent : Env) : P (Eval.enterScope scope parent) :=
  h.memory (f := (·.allocate scope parent)) fun m => .allocate m scope parent

theorem readVariable (env : Env) (offset depth : Nat) : P (Eval.readVariable env offset depth) :=
  h.bind (h.read (·.read env offset depth)) h.orFault

theorem writeVariable (env : Env) (offset depth : Nat) (value : Value) :
    P (Eval.writeVariable env offset depth value) :=
  h.bind (h.read (·.writable env offset depth)) fun result => h.bind (h.orFault result) fun id =>
    h.memory (f := fun m => ((), m.put id offset value)) fun m => .put m id offset value

theorem writeArguments (env : Env) (values : List Value) (count : Nat) :
    P (Eval.writeArguments env values count) := by
  unfold Eval.writeArguments
  split
  · exact h.pure _
  · exact h.bind (h.read (·.innermost env)) fun result => h.bind (h.orFault result) fun id =>
      h.memory (f := fun m => ((), m.change id (overlay · 0 (values.take count))))
        fun m => .overlay m id 0 _

theorem writeOption (env : Env) (slot : Option Nat) (value : Value) :
    P (Eval.writeOption env slot value) := by
  cases slot with
  | none => exact h.pure _
  | some slot => exact h.writeVariable env slot 0 value

theorem writeSlots (env : Env) (values : Array Value) (start : Nat) (slots : List Nat) :
    P (Eval.writeSlots env values start slots) := by
  induction slots generalizing start with
  | nil => exact h.pure _
  | cons slot slots ih => exact h.bind (h.writeVariable env slot 0 _) fun _ => ih _

theorem assign (env : Env) (params : ClosureParams) (value : Value) (isPacked : Bool) :
    P (Eval.assign env params value isPacked) := by
  unfold Eval.assign
  split
  · exact h.pure _
  · refine h.bind (h.writeSlots env _ 0 params.slots) fun _ => ?_
    split
    · exact h.writeVariable env _ 0 _
    · exact h.pure _
  · exact h.writeOption env _ _
  · exact h.writeOption env _ _

end Storage

namespace Tree

/-- A literal that is passed as a block is evaluated like a proc. -/
def blockOperands : BlockArg (Literal StaticId Node) Node → List Node
  | .absent => []
  | .literal literal => [.makeProc literal]
  | .pass value => [value]

/-- What is evaluated where the tree is. Variables that are set count as read. -/
def operands : Node → List Node
  | array items | seq items | yield items => items
  | localSet offset depth value => [localGet offset depth, value]
  | globalSet _ value | raise value => [value]
  | cond test yes no => test :: yes :: no.toList
  | binary _ lhs rhs => [lhs, rhs]
  | call receiver _ args block => receiver.toList ++ args ++ blockOperands block
  | makeLambda literal => [makeProc literal]
  | doReturn value | doBreak value | doNext value => value.toList
  | loop test body => [test, body]
  | rescue body handler => [body, handler]
  | _ => []

end Tree

/-- The tree that an act comes from is admitted, where the act carries trees along. -/
def Act.IsAdmitted (admits : Node → Prop) : Act → Prop
  | .makeProc literal _ => admits (.makeProc literal)
  | .define name definition =>
    admits (.define name definition.scope definition.params definition.body)
  | _ => True

/-- A relation for each place, and the trees that may be evaluated there. -/
structure Congruence {Place : Type} (Q : Place → EvalRelation) (admits : Place → Node → Prop)
    (bound : Nat) (perform perform' : Performer) : Prop where
  part {p : Place} {node part : Node} : admits p node → part ∈ node.operands → admits p part
  pure {p : Place} {α : Type} (a : α) : Q p (Pure.pure a) (Pure.pure a)
  bind {p : Place} {α β : Type} {x x' : Eval α} {f f' : α → Eval β} :
    Q p x x' → (∀ a, Q p (f a) (f' a)) → Q p (x >>= f) (x' >>= f')
  currentSelf {p : Place} : Q p Eval.currentSelf Eval.currentSelf
  localGet {p : Place} {offset depth : Nat} : admits p (.localGet offset depth) →
    Q p (do readVariable (← currentEnv) offset depth) (do readVariable (← currentEnv) offset depth)
  localSet {p : Place} {offset depth : Nat} (value : Value) : admits p (.localGet offset depth) →
    Q p (do writeVariable (← currentEnv) offset depth value)
      (do writeVariable (← currentEnv) offset depth value)
  global {p : Place} (name : String) : Q p (Eval.global name) (Eval.global name)
  setGlobal {p : Place} (name : String) (value : Value) :
    Q p (Eval.setGlobal name value) (Eval.setGlobal name value)
  binary {p : Place} (op : BinaryOp) (left right : Value) :
    Q p (applyBinary op left right) (applyBinary op left right)
  jump {p : Place} {g : Signal} : g.IsJump → Q p (signal g : Eval Value) (signal g)
  raised {p : Place} (message : Value) :
    Q p (raiseWith fun s => .runtime (s.view message).text : Eval Value)
      (raiseWith fun s => .runtime (s.view message).text)
  constant {p : Place} (name : String) : Q p (constantValue name) (constantValue name)
  blockGiven {p : Place} : Q p Eval.blockGiven Eval.blockGiven
  literal {p : Place} {literal : Literal StaticId Node} {call call' : ClosureId → Eval Value} :
    admits p (.makeProc literal) → (∀ id, Q p (call id) (call' id)) →
      Q p (callWithLiteral literal call) (callWithLiteral literal call')
  passed {p : Place} {call call' : Option ClosureId → Eval Value} (value : Value) :
    (∀ block, Q p (call block) (call' block)) →
      Q p (callWithPassed value call) (callWithPassed value call')
  looping {p : Place} {test test' body body' : Eval Value} : Q p test test' → Q p body body' →
    Q p (Eval.looping test body bound bound) (Eval.looping test' body' bound bound)
  rescuing {p : Place} {body body' handler handler' : Eval Value} :
    Q p body body' → Q p handler handler' →
      Q p (Eval.rescuing body handler bound) (Eval.rescuing body' handler' bound)
  /-- The body of a class runs in a place of its own. -/
  classBody {p : Place} {name : String} {superclass : Option String} {isModule : Bool}
    {scope : StaticId} {node : Node} {body body' : Eval Value} :
    admits p (.classBody name superclass isModule scope node) →
      (∀ inner, admits inner node → Q inner body body') →
        Q p (Eval.classBody name superclass isModule scope body)
          (Eval.classBody name superclass isModule scope body')
  act {p : Place} {act : Act} : act.IsAdmitted (admits p) → Q p (perform act) (perform' act)

namespace Congruence

variable {Place : Type} {Q : Place → EvalRelation} {bound : Nat} {perform perform' : Performer}

section trees

variable {admits : Place → Node → Prop} (h : Congruence Q admits bound perform perform')
include h

theorem map {p : Place} {α β : Type} {x x' : Eval α} (holds : Q p x x') (f : α → β) :
    Q p (do return f (← x)) (do return f (← x')) :=
  h.bind holds fun _ => h.pure _

theorem withBlock {p : Place} {block : BlockArg (Literal StaticId Node) Value}
    (literals : ∀ literal, block = .literal literal → admits p (.makeProc literal))
    {call call' : Option ClosureId → Eval Value} (calls : ∀ id, Q p (call id) (call' id)) :
    Q p (Eval.withBlock block call) (Eval.withBlock block call') := by
  cases block with
  | absent => exact calls none
  | literal literal => exact h.literal (literals literal rfl) fun id => calls (some id)
  | pass value => exact h.passed value calls

mutual

theorem eval {p : Place} (node : Node) (fits : admits p node) :
    Q p (node.evalWith bound perform) (node.evalWith bound perform') := by
  have inside {part : Node} (member : part ∈ node.operands) : admits p part := h.part fits member
  cases node with
  | nil | bool | int | str => exact h.pure _
  | array items => exact h.map (evalAll items fun _ => inside) _
  | self => exact h.currentSelf
  | localGet offset depth => exact h.localGet fits
  | localSet offset depth value =>
    refine h.bind (eval value (inside (.tail _ (.head _)))) fun value => ?_
    rw [← bind_assoc]
    exact h.map (h.localSet value (inside (.head _))) _
  | globalGet name => exact h.global name
  | globalSet name value =>
    exact h.bind (eval value (inside (.head _))) fun value => h.map (h.setGlobal name value) _
  | seq items => exact evalLast items _ fun _ => inside
  | cond test yes no =>
    refine h.bind (eval test (inside (.head _))) fun value => ?_
    split
    · exact eval yes (inside (.tail _ (.head _)))
    · exact evalOperand no fun _ own => inside (.tail _ (.tail _ (Option.mem_toList.2 own)))
  | binary op lhs rhs =>
    exact h.bind (eval lhs (inside (.head _))) fun left =>
      h.bind (eval rhs (inside (.tail _ (.head _)))) fun right => h.binary op left right
  | call receiver name args block =>
    simp only [Tree.operands, List.mem_append, Option.mem_toList] at inside
    refine h.bind (evalReceiver receiver fun _ own => inside (.inl (.inl own))) fun receiver => ?_
    refine h.bind (evalAll args fun _ member => inside (.inl (.inr member))) fun args => ?_
    exact evalBlock block (fun _ member => inside (.inr member)) fun block literals =>
      h.withBlock literals fun id => h.act trivial
  | bareCall name => exact h.bind h.currentSelf fun self => h.act trivial
  | yield args => exact h.bind (evalAll args fun _ => inside) fun args => h.act trivial
  | makeProc literal => exact h.act fits
  | makeLambda literal => exact h.act (inside (.head _))
  | methodRef name | superCall => exact h.act trivial
  | doReturn value =>
    exact h.bind (evalOperand value fun _ own => inside (Option.mem_toList.2 own)) fun value =>
      h.act trivial
  | doBreak value | doNext value =>
    exact h.bind (evalOperand value fun _ own => inside (Option.mem_toList.2 own)) fun _ =>
      h.jump trivial
  | redo | retry => exact h.jump trivial
  | loop test body =>
    exact h.looping (eval test (inside (.head _))) (eval body (inside (.tail _ (.head _))))
  | rescue body handler =>
    exact h.rescuing (eval body (inside (.head _))) (eval handler (inside (.tail _ (.head _))))
  | raise message => exact h.bind (eval message (inside (.head _))) h.raised
  | define name scope params body => exact h.act fits
  | classBody name superclass isModule scope body =>
    exact h.classBody fits fun _ => eval body
  | constant name => exact h.constant name
  | blockGiven => exact h.blockGiven

theorem evalAll {p : Place} (items : List Node) (fits : ∀ item ∈ items, admits p item) :
    Q p (Tree.evalAll bound perform items) (Tree.evalAll bound perform' items) := by
  cases items with
  | nil => exact h.pure _
  | cons item rest =>
    exact h.bind (eval item (fits item (.head _))) fun _ =>
      h.map (evalAll rest fun other member => fits other (.tail _ member)) _

theorem evalLast {p : Place} (items : List Node) (last : Value)
    (fits : ∀ item ∈ items, admits p item) :
    Q p (Tree.evalLast bound perform last items) (Tree.evalLast bound perform' last items) := by
  cases items with
  | nil => exact h.pure _
  | cons item rest =>
    exact h.bind (eval item (fits item (.head _))) fun value =>
      evalLast rest value fun other member => fits other (.tail _ member)

theorem evalOperand {p : Place} (operand : Option Node) (fits : ∀ value ∈ operand, admits p value) :
    Q p (Tree.evalOperand bound perform operand) (Tree.evalOperand bound perform' operand) := by
  cases operand with
  | none => exact h.pure _
  | some value => exact eval value (fits value rfl)

theorem evalReceiver {p : Place} (receiver : Option Node)
    (fits : ∀ value ∈ receiver, admits p value) :
    Q p (Tree.evalReceiver bound perform receiver) (Tree.evalReceiver bound perform' receiver) := by
  cases receiver with
  | none => exact h.map h.currentSelf _
  | some value => exact h.map (eval value (fits value rfl)) _

theorem evalBlock {p : Place} (block : BlockArg (Literal StaticId Node) Node)
    (fits : ∀ part ∈ Tree.blockOperands block, admits p part)
    {k k' : BlockArg (Literal StaticId Node) Value → Eval Value}
    (rest : ∀ block, (∀ literal, block = .literal literal → admits p (.makeProc literal)) →
      Q p (k block) (k' block)) :
    Q p (Tree.evalBlock bound perform block >>= k) (Tree.evalBlock bound perform' block >>= k') := by
  cases block with
  | absent => exact rest .absent nofun
  | literal literal =>
    refine rest (.literal literal) fun own same => ?_
    cases same
    exact fits _ (.head _)
  | pass value =>
    rw [Tree.evalBlock, Tree.evalBlock, bind_assoc, bind_assoc]
    exact h.bind (eval value (fits _ (.head _))) fun value => rest (.pass value) nofun

end

end trees

section code

/-! Of the trees that code carries in its literals nothing is known. -/

variable (h : Congruence Q (fun _ _ => True) bound perform perform')
include h

mutual

theorem exec {p : Place} (code : Code) :
    Q p (code.execWith bound perform) (code.execWith bound perform') := by
  cases code with
  | const => exact h.pure _
  | array items => exact h.map (execAll items) _
  | self => exact h.currentSelf
  | localGet offset depth => exact h.localGet trivial
  | localSet offset depth value =>
    refine h.bind (exec value) fun value => ?_
    rw [← bind_assoc]
    exact h.map (h.localSet value trivial) _
  | globalGet name => exact h.global name
  | globalSet name value =>
    exact h.bind (exec value) fun value => h.map (h.setGlobal name value) _
  | seq items => exact execLast items _
  | branch test yes no =>
    refine h.bind (exec test) fun value => ?_
    split
    · exact exec yes
    · exact exec no
  | binary op lhs rhs =>
    exact h.bind (exec lhs) fun left => h.bind (exec rhs) fun right => h.binary op left right
  | send receiver name args block =>
    exact h.bind (execReceiver receiver) fun receiver => h.bind (execAll args) fun args =>
      h.bind (execBlock block) fun block =>
        h.withBlock (fun _ _ => trivial) fun id => h.act trivial
  | bareCall name => exact h.bind h.currentSelf fun self => h.act trivial
  | yield args => exact h.bind (execAll args) fun args => h.act trivial
  | closure kind literal => exact h.act trivial
  | methodRef name => exact h.act trivial
  | leave exit value =>
    refine h.bind (exec value) fun value => ?_
    cases exit with
    | doReturn => exact h.act trivial
    | doBreak | doNext => exact h.jump trivial
  | redo => exact h.jump trivial
  | loop test body => exact h.looping (exec test) (exec body)
  | raise message => exact h.bind (exec message) h.raised
  | constant name => exact h.constant name
  | blockGiven => exact h.blockGiven

theorem execAll {p : Place} (items : List Code) :
    Q p (Code.execAll bound perform items) (Code.execAll bound perform' items) := by
  cases items with
  | nil => exact h.pure _
  | cons item rest => exact h.bind (exec item) fun _ => h.map (execAll rest) _

theorem execLast {p : Place} (items : List Code) (last : Value) :
    Q p (Code.execLast bound perform last items) (Code.execLast bound perform' last items) := by
  cases items with
  | nil => exact h.pure _
  | cons item rest => exact h.bind (exec item) fun value => execLast rest value

theorem execReceiver {p : Place} (receiver : Option Code) :
    Q p (Code.execReceiver bound perform receiver) (Code.execReceiver bound perform' receiver) := by
  cases receiver with
  | none => exact h.map h.currentSelf _
  | some value => exact h.map (exec value) _

theorem execBlock {p : Place} (block : BlockArg (Literal StaticId Node) Code) :
    Q p (Code.execBlock bound perform block) (Code.execBlock bound perform' block) := by
  cases block with
  | absent | literal => exact h.pure _
  | pass value => exact h.map (exec value) _

end

variable {p : Place} (m : Storage fun _ x => Q p x x)
include m

theorem bindOptional (env : Env) (params : List (OptionalParam Node)) (args : List Value) :
    Q p (Eval.bindOptional (Tree.evalWith bound perform) env params args)
      (Eval.bindOptional (Tree.evalWith bound perform') env params args) := by
  induction params generalizing args with
  | nil => exact h.pure _
  | cons param params ih =>
    cases args with
    | nil =>
      exact h.bind (h.eval param.fallback trivial) fun value =>
        h.bind (m.writeVariable env param.slot 0 value) fun _ => ih []
    | cons arg args => exact h.bind (m.writeVariable env param.slot 0 arg) fun _ => ih args

theorem bindArguments (env : Q p currentEnv currentEnv) (params : Params Node) (args : List Value)
    (block : Option ClosureId) :
    Q p (Eval.bindArguments (Tree.evalWith bound perform) params args block)
      (Eval.bindArguments (Tree.evalWith bound perform') params args block) := by
  refine h.bind env fun env => h.bind (m.writeOption env params.block _) fun _ =>
    h.bind (m.writeArguments env args _) fun _ =>
      h.bind (h.bindOptional m env params.optional _) fun rest => ?_
  split
  · exact m.writeVariable env _ 0 _
  · exact h.pure _

end code

end Congruence

end CallEngine
