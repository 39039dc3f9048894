import CallEngine.Proofs.MirroredSteps
import CallEngine.Proofs.Unwinding
/-! Whatever is evaluated under other identities gives the same, under other identities. -/
namespace CallEngine
open Eval

theorem Signal.renamed_of_jump (f : Target → Target) {g : Signal} (jumps : g.IsJump) :
    g.renamed f = g := by
  cases g with
  | stop target => cases target <;> first | rfl | exact jumps.elim
  | leave | error => exact jumps.elim
  | _ => rfl

namespace Mirror

variable {c : Mirror}

/-- Two runs ask for the same, and go on as they are answered. -/
def Follows (c : Mirror) {α : Type} (x : Responder → Eval α) : Prop :=
  ∀ {ask ask' : Responder}, (∀ request, c.Mirrors id (ask request) (ask' request)) →
    c.Mirrors id (x ask) (x ask')

namespace IsKept

variable (kept : c.IsKept)
include kept

section asking

variable {ask ask' : Responder} (asks : ∀ request, c.Mirrors id (ask request) (ask' request))
include asks

theorem performs (act : Act) : c.Mirrors id (act.perform ask) (act.perform ask') := by
  cases act with
  | call receiver name args block type => exact kept.callMethod asks receiver name args block type
  | yield args => exact .yieldArgs asks args
  | superCall => exact .superCall asks
  | makeProc literal kind => exact kept.makeProc literal kind
  | methodRef name => exact kept.methodProc name
  | doReturn value => exact kept.returnValue value
  | define name definition => exact kept.defineMethod name definition

variable (bound : Nat)

theorem congruence : Congruence (fun (_ : Unit) _ x y => c.Mirrors id x y) (fun _ _ => True) bound
    (Act.perform ask) (Act.perform ask') where
  part _ _ := trivial
  pure a := .pure a
  bind first rest := first.bind rest
  currentSelf := .currentSelf
  localGet _ := Mirrors.currentEnv.bind fun env => (Mirrors.storage c).readVariable env _ _
  localSet value _ := Mirrors.currentEnv.bind fun env => (Mirrors.storage c).writeVariable env _ _ value
  global name := .global name
  setGlobal name value := .setGlobal name value
  binary op left right := .applyBinary kept.zero op left right
  jump {_ g} jumps := by
    have halts : c.Mirrors id (signal g : Eval Value) (signal (g.renamed c.rename)) :=
      .halt (.signal g)
    rwa [Signal.renamed_of_jump c.rename jumps] at halts
  raised message := kept.raiseWith fun directory => .runtime (message.view directory).text
  constant name := .constantValue name
  blockGiven := .blockGiven
  literal _ calls := kept.callWithLiteral _ calls
  passed value calls := kept.callWithPassed value calls
  looping tests runs := tests.looping runs bound bound
  rescuing runs handles := runs.rescuing handles bound
  classBody _ runs := kept.classBody _ _ _ _ (runs () trivial)
  act _ := kept.performs asks _

theorem eval (node : Node) : c.Mirrors id (node.eval bound ask) (node.eval bound ask') :=
  (kept.congruence asks bound).eval (p := ()) node trivial

theorem exec (code : Code) : c.Mirrors id (code.exec bound ask) (code.exec bound ask') :=
  (kept.congruence asks bound).exec (p := ()) code

theorem dispatch (receiver : Value) (name : String) (args : List Value)
    (block : BlockArg (Literal StaticId Node) Value) (type : CallType) :
    c.Mirrors id (Eval.dispatch ask receiver name args block type)
      (Eval.dispatch ask' receiver name args block type) :=
  (kept.congruence asks 0).withBlock (p := ()) (fun _ _ => trivial) fun id =>
    kept.callMethod asks receiver name args id type

theorem bindArguments (params : Params Node) (args : List Value) (block : Option ClosureId) :
    c.Mirrors id (Eval.bindArguments (Tree.eval bound ask) params args block)
      (Eval.bindArguments (Tree.eval bound ask') params args block) :=
  (kept.congruence asks bound).bindArguments (p := ()) (Mirrors.storage c) Mirrors.currentEnv params
    args block

theorem methodBody (m : Method) (params : Params Node) (call : Call) {body body' : Eval Value}
    (runs : c.Mirrors id body body') :
    c.Mirrors id (Eval.methodBody (Tree.eval bound ask) m params call body)
      (Eval.methodBody (Tree.eval bound ask') (m.renamed c.rename) params call body') := by
  have inside : c.Mirrors id
      (do Eval.bindArguments (Tree.eval bound ask) params call.args call.block; body)
      (do Eval.bindArguments (Tree.eval bound ask') params call.args call.block; body') :=
    (kept.bindArguments asks bound params call.args call.block).bind fun _ => runs
  refine inside.handle fun outcome => ?_
  refine .bind (g := Outcome.renamed c.rename) (.read fun s => ?_) Mirrors.ofOutcome
  have ends := outcome.atMethod_renamed (kept.injective · m.target)
  exact (congrArg (Outcome.traced (s.context.stack.renamed c.rename)) ends).trans
    (Outcome.traced_renamed c.rename _ _)

theorem runBody {s : State} (proper : c.Proper s) {m : Method} (params : Params Node) (call : Call)
    (given : s.shared.Gave c.first (m.invocation call).target.toList) {body body' : Eval Value}
    (runs : c.Mirrors id body body') :
    c.Agrees id s (Eval.runBody bound ask m params call body s)
      (Eval.runBody bound ask' (m.renamed c.rename) params call body' (s.renamed c.rename)) := by
  have inside := kept.methodBody asks bound m params call runs
  rw [runBody_eq, runBody_eq, Method.invocation_renamed]
  exact Mirrors.entering m.config _ proper given inside

theorem invoke (source : MethodId) (call : Call) :
    c.Mirrors id (Eval.invoke bound ask source call) (Eval.invoke bound ask' source call) := by
  intro s proper
  refine (kept.method source s proper).bind fun called t looked later => ?_
  cases looked
  have given := proper.shared.invocation_given source call
  dsimp only
  generalize s.shared.library.method source = called at given
  obtain ⟨owner, visibility, config, target, body⟩ := called
  cases body with
  | interpreted definition promotion =>
    refine (kept.codeToRun source call.name s proper).bind fun code t _ later => ?_
    have given := later.gave given
    cases code with
    | some code =>
      exact kept.runBody asks bound later.proper definition.params call given
        (kept.exec asks bound code)
    | none =>
      exact kept.runBody asks bound later.proper definition.params call given
        (kept.eval asks bound definition.body)
  | compiled scope params code =>
    exact kept.runBody asks bound proper params call given (kept.exec asks bound code)
  | builtin builtin =>
    exact Mirrors.entering config _ proper given (kept.builtin asks bound builtin call)

theorem yieldLiteral {s : State} (proper : c.Proper s) (id : ClosureId)
    (literal : Literal StaticId Node) (delivery : Delivery) :
    c.Agrees (fun v : Value => v) s
      (Eval.yieldLiteral bound ask (s.shared.closure id) literal delivery s)
      (Eval.yieldLiteral bound ask' ((s.shared.closure id).renamed c.rename) literal delivery
        (s.renamed c.rename)) := by
  have m := Mirrors.storage c
  have given := proper.shared.frame_given id delivery
  rw [yieldLiteral_eq, yieldLiteral_eq, Closure.frame_renamed]
  generalize s.shared.closure id = closure at given
  refine (m.enterScope literal.scope closure.binding.env s proper).bind fun env t _ later => ?_
  refine Mirrors.withFrame later.proper (later.gave given) fun u later' => ?_
  refine Mirrors.withScope env ?_ u later'.proper
  refine (m.assign env literal.params delivery.value delivery.isPacked).bind fun _ => ?_
  refine ((kept.eval asks bound literal.body).redoing bound).bind fun outcome => ?_
  exact (outcome.atClosure_renamed (kept.injective · closure.target) closure.kind) ▸ .ofOutcome _

theorem yieldTo (closure : ClosureId) (delivery : Delivery) :
    c.Mirrors id (Eval.yieldTo bound ask closure delivery)
      (Eval.yieldTo bound ask' closure delivery) := by
  intro s proper
  refine (kept.closure closure s proper).bind fun yielded t looked later => ?_
  cases looked
  have yields := kept.yieldLiteral asks bound proper closure
  dsimp only
  generalize s.shared.closure closure = yielded at yields
  obtain ⟨body, binding, target, kind⟩ := yielded
  cases body with
  | literal literal => exact yields literal delivery
  | method method name => exact asks _ s proper

theorem respond (request : Request) :
    c.Mirrors id (Eval.respond bound ask request) (Eval.respond bound ask' request) := by
  cases request with
  | invoke method call => exact kept.invoke asks bound method call
  | yield closure delivery => exact kept.yieldTo asks bound closure delivery

end asking

theorem answer (fuel : Nat) (request : Request) :
    c.Mirrors id (Eval.answer fuel request) (Eval.answer fuel request) := by
  -- On how many calls and yields may be inside one another: the bodies ask with one less.
  induction fuel generalizing request with
  | zero => exact .halt .exhausted
  | succ fuel ih => exact kept.respond ih fuel request

theorem evalNode (fuel : Nat) (node : Node) :
    c.Mirrors id (Engine.evalNode fuel node) (Engine.evalNode fuel node) :=
  kept.eval (kept.answer fuel) fuel node

omit kept in
theorem toplevelOf (scope : StaticId) {body body' : Eval Value} (runs : c.Mirrors id body body') :
    c.Mirrors id (Engine.toplevelOf scope body) (Engine.toplevelOf scope body') := by
  refine .bind (g := id) (.read fun _ => rfl) fun main => ?_
  refine ((Mirrors.storage c).enterScope scope []).bind fun env s proper => ?_
  exact Mirrors.withFrame proper (fun _ => nofun) fun t later => runs.withScope env t later.proper

section requests

variable {α : Type} {x : Responder → Eval α}

theorem asked (same : c.rename = id) (follows : c.Follows x) {fuel : Nat} {s t : State}
    {request : Request} (asks : Asks x (Eval.answer fuel) s request t) (proper : c.Proper s) :
    c.Proper t := by
  -- Otherwise nothing would be asked where the run is cut off.
  refine Classical.byContradiction fun never => ?_
  obtain ⟨fault, differ⟩ := asks.differs
  have cut (other : Request) :
      c.Mirrors id (Eval.answer fuel other) (cutAt (Eval.answer fuel) request t fault other) := by
    intro s' proper'
    have runs := kept.answer fuel other s' proper'
    rw [same, State.renamed_id] at runs ⊢
    rwa [cutAt_other]
    rintro ⟨-, rfl⟩
    exact never proper'
  have runs := (follows cut s proper).same
  rw [same, State.renamed_id, renamedResult_id] at runs
  exact differ runs.symm

theorem leads (same : c.rename = id) {through : Request → State → Prop} {fuel last : Nat}
    {request final : Request} {s t : State} (path : Leads through fuel request s last final t)
    (proper : c.Proper s) : c.Proper t := by
  induction path with
  | refl => exact proper
  | @step fuel _ request _ _ _ _ _ _ asked _ ih =>
    have follows : c.Follows fun ask => Eval.respond fuel ask request :=
      fun asks => kept.respond asks fuel request
    exact ih (kept.asked same follows asked proper)

theorem during (same : c.rename = id) (follows : c.Follows x) {fuel last : Nat}
    {final : Request} {s t : State} (reached : During x fuel s last final t) (proper : c.Proper s) :
    c.Proper t := by
  obtain ⟨request, u, asks, path⟩ := reached
  exact kept.leads same path (kept.asked same follows asks proper)

/-- Wherever a body at top level has come. -/
theorem during_toplevel (same : c.rename = id) {scope : StaticId} {node : Node} {fuel last : Nat}
    {final : Request} {s t : State}
    (reached : During (fun ask => Engine.toplevelOf scope (node.eval fuel ask)) fuel s last final t)
    (proper : c.Proper s) : c.Proper t := by
  have follows : c.Follows fun ask => Engine.toplevelOf scope (node.eval fuel ask) :=
    fun asks => toplevelOf scope (kept.eval asks fuel node)
  exact kept.during same follows reached proper

end requests

end IsKept

end Mirror

end CallEngine
