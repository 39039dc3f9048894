import CallEngine.Proofs.Congruence
import CallEngine.Proofs.Signals
/-! Properties of evaluations that brackets keep too. The whole evaluator has them: trees, code,
methods and closures, with any bound on calls and iterations. -/
namespace CallEngine
open Eval

/-- No return that is aimed at `target` comes out. -/
def Catches (target : Target) : EvalProperty := fun _ x =>
  ∀ s value s', x s ≠ .error (.signal (.leave target value)) s'

/-- Also what brackets keep, and updates of every kind that evaluation makes. -/
structure Framing (P : EvalProperty) (resumes : Prop) : Prop extends Handling P resumes where
  jump {α : Type} {g : Signal} : g.IsJump → P (signal g : Eval α)
  leave (value : Value) : P (returnValue value)
  fault {α : Type} (fault : Fault) : P (throw (.fault fault) : Eval α)
  quiet {α : Type} {f : State → α × State} : Quiet f → P (modifyGet f)
  memory {α : Type} {f : Memory → α × Memory} : (∀ m : Memory, m.Evolves (f m).2) →
    P (modifyGet fun s : State =>
      ((f s.shared.memory).1, { s with shared.memory := (f s.shared.memory).2 }))
  newClosure (body : ClosureBody) (binding : Binding) (kind : ClosureKind) :
    P (modifyGet fun s : State =>
      let (id, shared) := s.shared.addClosure body binding kind
      (id, { s with shared }))
  newMethod (owner : ClassId) (visibility : Visibility) (definition : Definition) :
    P (addMethod fun target =>
      ⟨owner, visibility, .frameAndScope, target, .interpreted definition {}⟩)
  /-- A frame may be put around a body only if the body catches what the frame promises to. -/
  withFrame {α : Type} {frame : Frame} {body : Eval α} : P body →
    (∀ target, frame.activation = some target → Catches target body) →
      P (Eval.withFrame frame body)
  withScope {α : Type} {body : Eval α} (env : Env) : P body → P (Eval.withScope env body)
  traced {α : Type} {body : Eval α} (call : Invocation) : P body → P (Eval.traced call body)
  /-- A method turns signals into values and errors first, and errors without a backtrace get one
  then. -/
  boundary {body : Eval Value} (target : Target) : P body →
    P (observe body >>= fun outcome =>
      Eval.read (fun s => (outcome.atMethod target).traced s.context.stack) >>= ofOutcome)

/-- Also calls that are counted. -/
structure Counting (P : EvalProperty) (resumes : Prop) : Prop extends Framing P resumes where
  /-- Whether a body runs as a tree or as code lowered from it must not matter. -/
  promoted {run : Method → Definition → Option Code → Eval Value} {other : Method → Eval Value}
    (id : MethodId) (name : String) : (∀ m definition code, P (run m definition code)) →
    (∀ m, P (other m)) →
    (∀ m (definition : Definition) code, definition.body.lower = .ok code →
      run m definition (some code) = run m definition none) →
    P (Eval.read (fun s => (s.shared.library.method id).plain) >>= fun m =>
      match m.body with
      | .interpreted definition _ => codeToRun id name >>= run m definition
      | _ => other m)

/-- Closures claim the breaks of their bodies. -/
structure Composing (P : EvalProperty) (resumes : Prop) : Prop extends Counting P resumes where
  claim (target : Target) (value : Value) : P (signal (.stop (some target) value) : Eval Value)

theorem Handled.atMethod {P : EvalProperty} (pure : ∀ value : Value, P (Pure.pure value))
    (raise : ∀ {e : EvalError}, e.IsFresh → P (Eval.raise e : Eval Value)) (target : Target)
    (outcome : Outcome) : Handled P outcome (ofOutcome (outcome.atMethod target)) := by
  rcases outcome with g | value
  · cases g with
    | error e => exact .inl rfl
    | leave aim value =>
      change Handled P _
        (ofOutcome (if aim = target then .ok value else .error (.leave aim value)))
      split
      · exact .inr ⟨trivial, pure value⟩
      · exact .inl rfl
    | stop aim value =>
      cases aim with
      | none => exact .inr ⟨trivial, raise ⟨nofun, rfl⟩⟩
      | some aim => exact .inl rfl
    | next | redo | retry => exact .inr ⟨trivial, raise ⟨nofun, rfl⟩⟩
  · exact .inl rfl

theorem Sequential.boundary {P : EvalProperty} (h : Sequential P)
    (located : ∀ {x : Eval Outcome}, Observed P x → P (x >>= fun outcome =>
      Eval.read (fun s => outcome.traced s.context.stack) >>= ofOutcome))
    {body : Eval Value} (target : Target) (holds : P body) :
    P (Eval.observe body >>= fun outcome =>
      Eval.read (fun s => (outcome.atMethod target).traced s.context.stack) >>= ofOutcome) := by
  have atBoundary : Observed P (Eval.observe body >>= fun outcome =>
      Pure.pure (outcome.atMethod target)) := by
    refine ⟨h.map (h.observe holds) _, ?_⟩
    rw [bind_assoc]
    exact h.handleBody holds (.atMethod h.pure h.raise target)
  have inside := located atBoundary
  rw [bind_assoc] at inside
  exact inside

/-- Also all local updates, and observations that are dropped. -/
structure Bracketed (P : EvalProperty) : Prop extends Counting P True, Sequential P where
  update {α : Type} {f : State → α × State} : Local f → P (modifyGet f)
  /-- Errors without a backtrace get one. -/
  located {x : Eval Outcome} : Observed P x →
    P (x >>= fun outcome =>
      Eval.read (fun s => outcome.traced s.context.stack) >>= ofOutcome)
  quiet := fun isQuiet => update isQuiet.toLocal
  memory := fun {_ f} _ => update (.memory f)
  newClosure := fun body binding kind => update (.addClosure body binding kind)
  newMethod := fun owner visibility definition => update (.newMethod owner visibility definition)
  boundary := toSequential.boundary located

structure Compositional (P : EvalProperty) : Prop extends Bracketed P, Composing P True

theorem Handled.left {P Q : EvalProperty} {outcome : Outcome} {x : Eval Value}
    (handled : Handled (fun _ x => P x ∧ Q x) outcome x) : Handled P outcome x :=
  handled.imp_right (.imp_right And.left)

theorem Handled.right {P Q : EvalProperty} {outcome : Outcome} {x : Eval Value}
    (handled : Handled (fun _ x => P x ∧ Q x) outcome x) : Handled Q outcome x :=
  handled.imp_right (.imp_right And.right)

/-- Two properties that the evaluator has can be shown one by one. -/
theorem Compositional.and {P Q : EvalProperty} (p : Compositional P) (q : Compositional Q) :
    Compositional fun _ x => P x ∧ Q x where
  pure a := ⟨p.pure a, q.pure a⟩
  bind first rest := ⟨p.bind first.1 fun a => (rest a).1, q.bind first.2 fun a => (rest a).2⟩
  read blind := ⟨p.read blind, q.read blind⟩
  exhausted := ⟨p.exhausted, q.exhausted⟩
  raise fresh := ⟨p.raise fresh, q.raise fresh⟩
  jump jumps := ⟨p.jump jumps, q.jump jumps⟩
  claim target value := ⟨p.claim target value, q.claim target value⟩
  leave value := ⟨p.leave value, q.leave value⟩
  poll := ⟨p.poll, q.poll⟩
  visibility visibility := ⟨p.visibility visibility, q.visibility visibility⟩
  observe holds := ⟨p.observe holds.1, q.observe holds.2⟩
  live holds := ⟨p.live holds.1, q.live holds.2⟩
  handle holds blind handled :=
    ⟨p.handle ⟨holds.runs.1, holds.passes.1⟩ blind fun outcome c => (handled outcome c).left,
      q.handle ⟨holds.runs.2, holds.passes.2⟩ blind fun outcome c => (handled outcome c).right⟩
  fault fault := ⟨p.fault fault, q.fault fault⟩
  update isLocal := ⟨p.update isLocal, q.update isLocal⟩
  withFrame holds catches := ⟨p.withFrame holds.1 catches, q.withFrame holds.2 catches⟩
  withScope env holds := ⟨p.withScope env holds.1, q.withScope env holds.2⟩
  traced call holds := ⟨p.traced call holds.1, q.traced call holds.2⟩
  located holds :=
    ⟨p.located ⟨holds.runs.1, holds.passes.1⟩, q.located ⟨holds.runs.2, holds.passes.2⟩⟩
  promoted id name runs others same :=
    ⟨p.promoted id name (fun m d c => (runs m d c).1) (fun m => (others m).1) same,
      q.promoted id name (fun m d c => (runs m d c).2) (fun m => (others m).2) same⟩

theorem Emits.storage (Q : Signal → Prop) : Storage (Emits Q) where
  pure _ _ _ _ := nofun
  bind := bind
  read _ _ _ _ := nofun
  fault _ _ _ _ := nofun
  memory _ _ _ _ := nofun

/-- No return to the target. -/
def Signal.Misses (target : Target) (g : Signal) : Prop := ∀ value, g ≠ .leave target value

theorem Signal.error_misses (target : Target) (e : EvalError) : (Signal.error e).Misses target :=
  nofun

namespace Catches

variable {target : Target}

theorem iff_emits {α : Type} {x : Eval α} :
    Catches target x ↔ Emits (Signal.Misses target) x := by
  constructor
  · rintro catches s g s' ends value rfl
    exact catches s value s' ends
  · intro emits s value s' ends
    exact emits s _ s' ends value rfl

theorem bind {α β : Type} {x : Eval α} {f : α → Eval β} (first : Catches target x)
    (rest : ∀ a, Catches target (f a)) : Catches target (x >>= f) :=
  iff_emits.2 ((iff_emits.1 first).bind fun a => iff_emits.1 (rest a))

theorem storage (target : Target) : Storage (Catches target) where
  pure _ _ _ _ := nofun
  bind := bind
  read _ _ _ _ := nofun
  fault _ _ _ _ := nofun
  memory _ _ _ _ := nofun

theorem withScope {α : Type} {body : Eval α} (catches : Catches target body) (env : Env) :
    Catches target (Eval.withScope env body) :=
  iff_emits.2 ((iff_emits.1 catches).withScope env)

theorem withNewScope {α : Type} {body : Eval α} (catches : Catches target body)
    (scope : Option StaticId) : Catches target (Eval.withNewScope scope body) :=
  iff_emits.2 ((iff_emits.1 catches).withNewScope scope)

theorem traced {α : Type} {body : Eval α} (catches : Catches target body) (call : Invocation) :
    Catches target (Eval.traced call body) :=
  iff_emits.2 ((iff_emits.1 catches).traced call)

theorem withFrames {α : Type} {body : Eval α} (catches : Catches target body)
    (frames : List Frame) : Catches target (Eval.withFrames frames body) :=
  iff_emits.2 (.withFrames (Signal.error_misses target) (iff_emits.1 catches) frames)

theorem ofOutcome {outcome : Outcome} (other : ∀ value, outcome ≠ .error (.leave target value)) :
    Catches target (Eval.ofOutcome outcome) :=
  iff_emits.2 (.ofOutcome fun _ same value aimed => other value (aimed ▸ same))

theorem readOutcome {view : State → Outcome}
    (other : ∀ s value, view s ≠ .error (.leave target value)) :
    Catches target (Eval.read view >>= Eval.ofOutcome) :=
  fun s => ofOutcome (other s) s

theorem observe {body : Eval Value} : Catches target (Eval.observe body) :=
  iff_emits.2 (.observe body)

theorem redoing {body : Eval Value} (bound : Nat) : Catches target (Eval.redoing body bound) :=
  iff_emits.2 (.redoing (Signal.error_misses target) body bound)

end Catches

theorem Outcome.atMethod_ne (target : Target) (outcome : Outcome) (value : Value) :
    outcome.atMethod target ≠ .error (.leave target value) := by
  intro same
  unfold Outcome.atMethod at same
  split at same
  · split at same <;> cases same
    contradiction
  · next signal other =>
    split at same <;> cases same
    exact other _ _ rfl
  · next other =>
    cases same
    exact other _ rfl

theorem Outcome.traced_ne (stack : FrameStack) {target : Target} {outcome : Outcome} {value : Value}
    (other : outcome ≠ .error (.leave target value)) :
    outcome.traced stack ≠ .error (.leave target value) := by
  unfold Outcome.traced
  split
  · split <;> simp
  · exact other

theorem Outcome.atClosure_ne (target : Target) (outcome : Outcome) (value : Value) :
    outcome.atClosure target .lambda ≠ .error (.leave target value) := by
  intro same
  unfold Outcome.atClosure at same
  split at same
  · cases same
  · split at same <;> cases same
    simp_all
  · cases same
  · next other _ =>
    cases same
    exact other _ _ rfl

theorem CallConfig.frames_activation (config : CallConfig) (call : Invocation) :
    ∀ frame ∈ config.frames call, frame.activation = none ∨ frame.activation = call.target := by
  intro frame member
  unfold CallConfig.frames at member
  split at member
  · cases member
  · rcases List.mem_cons.1 member with rfl | member
    · exact .inl rfl
    · rw [List.mem_singleton] at member
      exact .inr (member ▸ rfl)
  · rw [List.mem_singleton] at member
    exact .inr (member ▸ rfl)

theorem Method.invocation_target {m : Method} {call : Call} {target : Target}
    (own : (m.invocation call).target = some target) : m.target = target := by
  obtain ⟨owner, visibility, config, aim, body⟩ := m
  cases body <;> cases own <;> rfl

section

variable (bound : Nat) (ask : Responder)

theorem Eval.runBody_plain (m : Method) (params : Params Node) (call : Call) (body : Eval Value) :
    runBody bound ask m.plain params call body = runBody bound ask m params call body := by
  rw [runBody, m.plain_invocation]
  rfl

/-- A method inside its frames. -/
def Eval.methodBody (eval : Node → Eval Value) (m : Method) (params : Params Node) (call : Call)
    (body : Eval Value) : Eval Value := do
  let outcome ← observe do
    bindArguments eval params call.args call.block
    body
  ofOutcome (← Eval.read fun s => (outcome.atMethod m.target).traced s.context.stack)

theorem Eval.runBody_eq (m : Method) (params : Params Node) (call : Call) (body : Eval Value) :
    runBody bound ask m params call body =
      entering m.config (m.invocation call) (methodBody (Tree.eval bound ask) m params call body) := rfl

/-- A closure inside its frame. -/
def Eval.literalBody (eval : Node → Eval Value) (closure : Closure)
    (literal : Literal StaticId Node) (delivery : Delivery) (env : Env) : Eval Value :=
  withScope env do
    assign env literal.params delivery.value delivery.isPacked
    let outcome ← redoing (eval literal.body) bound
    ofOutcome (outcome.atClosure closure.target closure.kind)

theorem Eval.yieldLiteral_eq (closure : Closure) (literal : Literal StaticId Node)
    (delivery : Delivery) : yieldLiteral bound ask closure literal delivery =
      (enterScope literal.scope closure.binding.env >>= fun env =>
        withFrame (closure.frame delivery)
          (literalBody bound (Tree.eval bound ask) closure literal delivery env)) :=
  rfl

/-- Methods whose body is no tree. -/
def Method.runOther (call : Call) (m : Method) : Eval Value :=
  match m.body with
  | .interpreted .. => pure .nil
  | .compiled _ params code => runBody bound ask m params call (code.exec bound ask)
  | .builtin builtin => entering m.config (m.invocation call) (builtin.run bound ask call)

theorem Eval.invoke_eq (id : MethodId) (call : Call) : invoke bound ask id call =
    (Eval.read (fun s => (s.shared.library.method id).plain) >>= fun m =>
      match m.body with
      | .interpreted definition _ => codeToRun id call.name >>= fun code =>
        runBody bound ask m definition.params call
          (match code with
            | some code => code.exec bound ask
            | none => definition.body.eval bound ask)
      | _ => m.runOther bound ask call) := by
  refine method_eq id fun m => ?_
  have plain := runBody_plain bound ask m
  obtain ⟨owner, visibility, config, target, body⟩ := m
  cases body with
  | interpreted definition promotion =>
    refine congrArg (codeToRun id call.name >>= ·) (funext fun code => ?_)
    cases code <;> exact (plain _ _ _).symm
  | compiled scope params code => rfl
  | builtin builtin => rfl

end

/-- The frame and the scope of a top-level body, whatever evaluates the body. -/
def Engine.toplevelOf (scope : StaticId) (body : Eval Value) : Eval Value := do
  let main ← Eval.read (·.context.main)
  let env ← enterScope scope []
  withFrame { self := .object main, cls := some Core.object, visibility := .priv } <|
    withScope env body

theorem Engine.toplevel_eq (fuel : Nat) (scope : StaticId) (body : Node) :
    toplevel fuel scope body = toplevelOf scope (evalNode fuel body) := rfl

namespace Framing

variable {P : EvalProperty} {resumes : Prop} (h : Framing P resumes)
include h

theorem storage : Storage P := { h, h.toHandling with read := fun _ => h.read fun _ => rfl }

theorem currentFrame : P Eval.currentFrame :=
  h.bind (h.read fun _ => rfl) h.storage.orFault

theorem currentEnv : P Eval.currentEnv := by
  refine h.bind (h.read fun _ => rfl) fun scopes => ?_
  split
  · exact h.pure _
  · exact h.fault _

theorem makeClosure (body : ClosureBody) (kind : ClosureKind) : P (Eval.makeClosure body kind) :=
  h.bind h.currentFrame fun _ => h.bind h.currentEnv fun _ => h.newClosure body _ kind

theorem steering : Steering P resumes where
  toHandling := h.toHandling
  frame := h.currentFrame
  env := h.currentEnv
  quiet := h.quiet
  methodClosure _ _ := h.makeClosure _ _

theorem defineMethod (name : String) (definition : Definition) :
    P (Eval.defineMethod name definition) :=
  h.steering.defineMethod name fun owner visibility => h.newMethod owner visibility definition

theorem classBody (name : String) (superclass : Option String) (isModule : Bool)
    (scope : StaticId) {body : Eval Value} (holds : P body) :
    P (Eval.classBody name superclass isModule scope body) :=
  h.bind (h.steering.openClass name superclass isModule) fun _ =>
    h.bind (h.storage.enterScope scope []) fun env =>
      h.withFrame (h.withScope env holds) fun _ => nofun

section asking

variable {ask : Responder} (asks : ∀ request, P (ask request))
include asks

theorem performs (act : Act) : P (act.perform ask) := by
  have c := h.steering
  cases act with
  | call receiver name args block type => exact c.callMethod asks receiver name args block type
  | yield args => exact c.yieldArgs asks args
  | superCall => exact c.superCall asks
  | makeProc literal kind => exact h.map (h.makeClosure _ kind) _
  | methodRef name => exact c.methodProc name
  | doReturn value => exact h.leave value
  | define name definition => exact h.defineMethod name definition

variable (bound : Nat) (enough : bound = 0 → resumes)
include enough

/-- The property of one evaluation as a relation. -/
theorem congruence : Congruence (fun (_ : Unit) _ x _ => P x) (fun _ _ => True) bound
    (Act.perform ask) (Act.perform ask) where
  part _ _ := trivial
  pure := h.pure
  bind := h.bind
  currentSelf := h.steering.currentSelf
  localGet _ := h.bind h.currentEnv fun env => h.storage.readVariable env _ _
  localSet value _ := h.bind h.currentEnv fun env => h.storage.writeVariable env _ _ value
  global := h.steering.global
  setGlobal := h.steering.setGlobal
  binary := h.steering.applyBinary
  jump := h.jump
  raised _ := h.raiseWith (fun s => by simp) fun _ => ⟨nofun, rfl⟩
  constant := h.steering.constantValue
  blockGiven := h.steering.blockGiven
  literal _ calls := h.steering.callWithLiteral (h.makeClosure _ _) calls
  passed value calls := h.steering.callWithPassed value calls
  looping tests runs := h.looping tests runs bound bound enough
  rescuing runs handles := h.steering.rescuing runs handles bound enough
  classBody _ runs := h.classBody _ _ _ _ (runs () trivial)
  act _ := h.performs asks _

theorem eval (node : Node) : P (node.eval bound ask) :=
  (h.congruence asks bound enough).eval (p := ()) node trivial

theorem exec (code : Code) : P (code.exec bound ask) :=
  (h.congruence asks bound enough).exec (p := ()) code

theorem bindArguments (params : Params Node) (args : List Value) (block : Option ClosureId) :
    P (Eval.bindArguments (Tree.eval bound ask) params args block) :=
  (h.congruence asks bound enough).bindArguments (p := ()) h.storage h.currentEnv params args block

end asking

theorem withFrames {α : Type} {body : Eval α} {frames : List Frame} (holds : P body)
    (catches : ∀ frame ∈ frames, ∀ target, frame.activation = some target →
      Catches target body) : P (Eval.withFrames frames body) := by
  induction frames with
  | nil => exact holds
  | cons frame frames ih =>
    refine h.withFrame (ih fun other member => catches other (.tail _ member)) ?_
    exact fun target active => (catches frame (.head _) target active).withFrames frames

theorem withNewScope {α : Type} {body : Eval α} (holds : P body) (scope : Option StaticId) :
    P (Eval.withNewScope scope body) := by
  cases scope with
  | none => exact holds
  | some scope => exact h.bind (h.storage.enterScope scope []) fun env => h.withScope env holds

theorem entering {α : Type} {body : Eval α} (config : CallConfig) (call : Invocation)
    (holds : P body) (catches : ∀ target, call.target = some target → Catches target body) :
    P (Eval.entering config call body) := by
  have inside : P (Eval.withFrames (config.frames call) <|
      Eval.withNewScope (if config.pushesScope then call.scope else none) <|
        Eval.traced call body) := by
    refine h.withFrames (h.withNewScope (h.traced call holds) _) ?_
    intro frame member target active
    rcases config.frames_activation call frame member with none | same
    · rw [none] at active
      cases active
    · exact ((catches target (same ▸ active)).traced call).withNewScope _
  unfold Eval.entering
  dsimp only
  split
  · exact h.bind (h.checkArity _ _) fun _ => inside
  · exact inside

theorem atClosure {target : Target}
    (claims : ∀ value, P (signal (.stop (some target) value) : Eval Value)) (kind : ClosureKind)
    (outcome : Outcome) : Handled P outcome (ofOutcome (outcome.atClosure target kind)) := by
  rcases outcome with g | value
  · cases g with
    | next value => exact .inr ⟨trivial, h.pure value⟩
    | leave aim value =>
      change Handled P _ (ofOutcome
        (if kind = .lambda ∧ aim = target then .ok value else .error (.leave aim value)))
      split
      · exact .inr ⟨trivial, h.pure value⟩
      · exact .inl rfl
    | stop aim value =>
      cases aim with
      | none =>
        change Handled P _
          (ofOutcome (if kind = .lambda then .ok value else .error (.stop (some target) value)))
        split
        · exact .inr ⟨trivial, h.pure value⟩
        · exact .inr ⟨trivial, claims value⟩
      | some aim => exact .inl rfl
    | error | redo | retry => exact .inl rfl
  · exact .inl rfl

section answering

variable {ask : Responder} (asks : ∀ request, P (ask request)) (bound : Nat)
  (enough : bound = 0 → resumes)
include asks enough

theorem methodBody (m : Method) (params : Params Node) (call : Call) {body : Eval Value}
    (holds : P body) : P (Eval.methodBody (Tree.eval bound ask) m params call body) :=
  h.boundary m.target (h.bind (h.bindArguments asks bound enough params call.args call.block)
    fun _ => holds)

theorem runBody (m : Method) (params : Params Node) (call : Call) {body : Eval Value}
    (holds : P body) : P (Eval.runBody bound ask m params call body) := by
  have inside := h.methodBody asks bound enough m params call holds
  rw [Eval.runBody_eq]
  refine h.entering m.config (m.invocation call) inside fun target own => ?_
  refine .bind .observe fun outcome => .readOutcome fun s value => ?_
  exact Method.invocation_target own ▸ Outcome.traced_ne _ (Outcome.atMethod_ne _ _ _)

theorem literalBody {closure : Closure}
    (claims : ∀ value, P (signal (.stop (some closure.target) value) : Eval Value))
    (literal : Literal StaticId Node) (delivery : Delivery) (env : Env) :
    P (Eval.literalBody bound (Tree.eval bound ask) closure literal delivery env) := by
  refine h.withScope env ?_
  refine h.bind (h.storage.assign env literal.params delivery.value delivery.isPacked) fun _ => ?_
  exact h.redone (h.eval asks bound enough literal.body) bound enough
    (h.atClosure claims closure.kind)

theorem yieldLiteral {closure : Closure}
    (claims : ∀ value, P (signal (.stop (some closure.target) value) : Eval Value))
    (literal : Literal StaticId Node) (delivery : Delivery) :
    P (Eval.yieldLiteral bound ask closure literal delivery) := by
  rw [Eval.yieldLiteral_eq]
  refine h.bind (h.storage.enterScope literal.scope closure.binding.env) fun env => ?_
  refine h.withFrame (h.literalBody asks bound enough claims literal delivery env)
    fun target active => .withScope ?_ env
  -- Only the frame of a lambda is an activation, and a lambda catches its own returns.
  have lambda : closure.kind = .lambda ∧ closure.target = target := by
    simpa [Closure.frame] using active
  obtain ⟨kind, rfl⟩ := lambda
  refine .bind ((Catches.storage _).assign env _ _ _) fun _ => .bind (.redoing bound) ?_
  rw [kind]
  exact fun outcome => .ofOutcome (outcome.atClosure_ne closure.target)

end answering

theorem toplevelOf {body : Eval Value} (holds : P body) (scope : StaticId) :
    P (Engine.toplevelOf scope body) := by
  refine h.bind (h.read fun _ => rfl) fun main => ?_
  refine h.bind (h.storage.enterScope scope []) fun env => ?_
  exact h.withFrame (h.withScope env holds) fun _ => nofun

end Framing

theorem Counting.invoke {P : EvalProperty} {resumes : Prop} (h : Counting P resumes)
    {ask : Responder} (asks : ∀ request, P (ask request)) (bound : Nat)
    (enough : bound = 0 → resumes) (id : MethodId) (call : Call) :
    P (Eval.invoke bound ask id call) := by
  rw [Eval.invoke_eq]
  refine h.promoted id call.name (fun m definition code => ?_) (fun m => ?_)
    fun m definition code lowered => ?_
  · cases code with
    | none => exact h.runBody asks bound enough m _ call (h.eval asks bound enough definition.body)
    | some code => exact h.runBody asks bound enough m _ call (h.exec asks bound enough code)
  · unfold Method.runOther
    split
    · exact h.pure _
    · exact h.runBody asks bound enough m _ call (h.exec asks bound enough _)
    · next builtin body =>
      refine h.entering m.config (m.invocation call) (h.steering.builtin asks bound enough builtin call) ?_
      simp [Method.invocation, body]
  · exact congrArg (Eval.runBody bound ask m definition.params call)
      (definition.body.exec_lower bound ask lowered)

namespace Bracketed

variable {P : EvalProperty} (h : Bracketed P)
include h

theorem control : Control P := { h.toSequential, h.toFraming.steering with }

end Bracketed

namespace Composing

variable {P : EvalProperty}

section answering

variable {resumes : Prop} (h : Composing P resumes) {ask : Responder}
  (asks : ∀ request, P (ask request)) (bound : Nat) (enough : bound = 0 → resumes)
include h asks enough

theorem yieldTo (id : ClosureId) (delivery : Delivery) :
    P (Eval.yieldTo bound ask id delivery) := by
  refine h.bind (h.steering.closure id) fun yielded => ?_
  split
  · exact h.yieldLiteral asks bound enough (h.claim yielded.target) _ delivery
  · exact asks _

end answering

variable (h : Composing P True)
include h

theorem answer (fuel : Nat) (request : Request) : P (Eval.answer fuel request) := by
  -- On how many calls and yields may be inside one another: the bodies ask with one less.
  induction fuel generalizing request with
  | zero => exact h.spent trivial
  | succ fuel ih =>
    cases request with
    | invoke id call => exact h.invoke ih fuel (fun _ => trivial) id call
    | yield id delivery => exact h.yieldTo ih fuel (fun _ => trivial) id delivery

theorem evalNode (fuel : Nat) (node : Node) : P (Engine.evalNode fuel node) :=
  h.eval (h.answer fuel) fuel (fun _ => trivial) node

theorem toplevel (fuel : Nat) (scope : StaticId) (body : Node) :
    P (Engine.toplevel fuel scope body) :=
  Engine.toplevel_eq fuel scope body ▸ h.toplevelOf (h.evalNode fuel body) scope

theorem runToplevel (fuel : Nat) (scope : StaticId) (body : Node) :
    P (Engine.runToplevel fuel scope body) :=
  h.surfaced (h.toplevel fuel scope body)

theorem send (fuel : Nat) (receiver : Value) (name : String) (args : List Value) :
    P (Engine.send fuel receiver name args) :=
  h.surfaced (h.steering.callMethod (h.answer fuel) receiver name args none .normal)

theorem dispatch (fuel : Nat) (receiver : Value) (name : String) (args : List Value)
    (block : BlockArg (Literal StaticId Node) Value) (type : CallType) :
    P (Engine.dispatch fuel receiver name args block type) :=
  h.steering.dispatch (h.answer fuel) receiver name args block type fun _ _ => h.makeClosure _ _

theorem callClosure (fuel : Nat) (closure : ClosureId) (args : List Value) :
    P (Engine.callClosure fuel closure args) :=
  h.steering.callClosure (h.answer fuel) closure args

end Composing

end CallEngine
