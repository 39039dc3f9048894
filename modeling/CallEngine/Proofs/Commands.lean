import CallEngine.Proofs.Composition
import CallEngine.Session.Run
/-! Commands of a session have the properties of the evaluator, and a session is the steps one
after the other. -/
namespace CallEngine
open Eval

/-- The session after some steps. -/
def Session.after (fuel : Nat) (session : Session) : List Session.Step → Session
  | [] => session
  | first :: rest => ((session.step fuel first).2).after fuel rest

def Session.addContext (session : Session) : Session :=
  let (context, shared) := session.shared.newContext session.contexts.length
  { session with shared, contexts := session.contexts ++ [context] }

/-- What one more context keeps, any number of them keeps. -/
theorem Session.addContexts_keeps {P : Session → Prop}
    (adds : ∀ session : Session, P session → P session.addContext) {session : Session}
    (holds : P session) (count : Nat) : P (session.addContexts count) := by
  induction count generalizing session with
  | zero => exact holds
  | succ count ih => exact ih (adds session holds)

/-- Commands other than those that show how far the promotion of methods has come. -/
def Session.Command.hidesPromotion : Session.Command → Bool
  | .method _ | .outline => false
  | _ => true

/-- Also new identities. -/
structure Hosting (P : EvalProperty) : Prop extends Composing P True, Sequential P where
  newTarget : P Session.freshTarget

theorem Boundless.newTarget : Boundless fun s : State =>
    let (target, shared) := s.shared.freshTarget
    (target, { s with shared }) where
  plain _ := rfl
  surroundings _ := rfl
  identities s := .freshTarget s.shared
  methods _ := .of_eq rfl
  relimit _ _ := rfl

/-- A change to the monitor by a context. -/
def Eval.changeMonitor {α : Type} (f : Monitor → ContextId → α × Monitor) : Eval α :=
  modifyGet fun s => ((f s.shared.monitor s.context.id).1,
    { s with shared.monitor := (f s.shared.monitor s.context.id).2 })

structure Sessional (P : EvalProperty) : Prop extends Compositional P, Hosting P where
  monitor {α : Type} (f : Monitor → ContextId → α × Monitor) : P (changeMonitor f)
  newTarget := update Boundless.newTarget.toLocal

/-- The body of a method that was never called. -/
def MethodBody.IsNew (body : MethodBody) : Prop := ∀ m : Method, m.body = body → m.plain = m

theorem MethodBody.IsNew.interpreted (definition : Definition) :
    (MethodBody.interpreted definition {}).IsNew := by
  rintro ⟨owner, visibility, config, target, body⟩ rfl
  rfl

theorem MethodBody.IsNew.compiled (scope : StaticId) (params : Params Node) (code : Code) :
    (MethodBody.compiled scope params code).IsNew := by
  rintro ⟨owner, visibility, config, target, body⟩ rfl
  rfl

def Session.Command.changesMonitor : Session.Command → Bool
  | .interrupt | .addHook _ | .removeHook _ => true
  | _ => false

/-- What a command needs beyond the evaluator: changes to the monitor, and methods that are made by
hand. Unlike those that scripts make, they can have any configuration. -/
def Session.Command.Needs (P : EvalProperty) : Session.Command → Prop
  | .define _ _ visibility config _ _ => ∀ owner (body : MethodBody), body.IsNew →
    P (Eval.addMethod fun target =>
      ⟨owner, visibility, config.getD .frameAndScope, target, body⟩)
  | .copyMethod _ _ _ keepsOwner visibility config _ => ∀ id cls,
    P (Eval.copyMethod id fun m =>
      { m with
        owner := if keepsOwner then m.owner else cls
        visibility := visibility.getD m.visibility
        config := config.getD m.config })
  | .interrupt | .addHook _ | .removeHook _ =>
    ∀ {α : Type} (f : Monitor → ContextId → α × Monitor), P (changeMonitor f)
  | _ => True

theorem Session.Command.needs {P : EvalProperty} {command : Session.Command}
    (update : ∀ {α : Type} {f : State → α × State}, Boundless f → P (modifyGet f))
    (monitor : command.changesMonitor → ∀ {α : Type} (f : Monitor → ContextId → α × Monitor),
      P (changeMonitor f)) : command.Needs P := by
  cases command with
  | define cls decl visibility config isSingleton isCompiled =>
    intro owner body isNew
    let made (target : Target) : Method :=
      ⟨owner, visibility, config.getD .frameAndScope, target, body⟩
    have isLocal := Local.addMethod (fun _ => made) (fun _ _ => rfl) (fun _ _ => rfl)
      fun _ _ => isNew _ rfl
    exact update ⟨isLocal, fun _ _ => rfl⟩
  | copyMethod =>
    have copied (id : MethodId) {change : Method → Method} (body : ∀ m, (change m).body = m.body)
        (target : ∀ m, (change m).target = m.target) : P (Eval.copyMethod id change) :=
      update ⟨.copyMethod id change body target, fun _ _ => rfl⟩
    exact fun id _ => copied id (fun _ => rfl) fun _ => rfl
  | interrupt | addHook | removeHook => exact monitor rfl
  | _ => trivial

/-- Looking around gives no signal, whatever the body ends with. -/
theorem Catches.lookAround (fuel : Nat) (config : CallConfig) (target : Option Target)
    (body : Option Node) (aim : Target) :
    Catches aim (Session.lookAround fuel config target body) := by
  have m := Catches.storage aim
  refine .bind (fun _ _ _ => nofun) fun depth =>
    .bind (.bind (fun _ _ _ => nofun) m.orFault) fun frame =>
    .bind (fun _ _ _ => nofun) fun view =>
    .bind (.bind (fun _ _ _ => nofun) fun scopes => ?_) fun env =>
    .bind (fun _ _ _ => nofun) fun hasVariables => .bind (fun _ _ _ => nofun) fun active =>
    .bind (fun _ _ _ => nofun) fun backtrace => ?_
  · split
    · exact m.pure _
    · exact m.fault _
  · cases body with
    | none => exact m.pure _
    | some node =>
      exact .bind .observe fun outcome => .bind (fun _ _ _ => nofun) fun directory => m.pure _

/-- What a resolver makes of memory, which stays as it was if there is a fault. -/
def Resolver.update {α : Type} (resolver : Resolver α) (m : Memory) : Except Fault α × Memory :=
  match resolver m with
  | .ok a m' => (.ok a, m')
  | .error fault _ => (.error fault, m)

theorem Engine.resolve_eq {α : Type} (resolver : Resolver α) : Engine.resolve resolver =
    (modifyGet fun s : State => ((resolver.update s.shared.memory).1,
      { s with shared.memory := (resolver.update s.shared.memory).2 })) >>= Eval.orFault := by
  funext s
  change _ = Eval.orFault (resolver.update s.shared.memory).1
    { s with shared.memory := (resolver.update s.shared.memory).2 }
  unfold Engine.resolve Resolver.update
  simp only [Bind.bind, EStateM.bind, Eval.read]
  cases resolver s.shared.memory <;> rfl

namespace Session

theorem resolveAlone_evolving (source : Source) :
    (do source.resolve (← emptyScope) : Resolver Node).Evolving :=
  .bind (.enter {}) fun scope => source.resolve_evolving scope

theorem resolveLiteral_evolving (literal : Literal ScopeDecl Source) :
    (do Tree.resolveLiteral (← emptyScope) literal : Resolver _).Evolving :=
  .bind (.enter {}) fun scope => Tree.resolveLiteral_evolving scope literal

theorem MethodDecl.resolve_evolving (decl : MethodDecl) : decl.resolve.Evolving :=
  .bind (.enterMethod decl.scope) fun scope =>
    .bind (Tree.resolveParams_evolving scope decl.params) fun _ =>
      .map (decl.body.resolve_evolving scope) _

theorem resolveIn_evolving (names : Names) (body : Source) (vars : List String)
    (scope : Option String) : (resolveIn names body vars scope).Evolving := by
  refine .bind ?_ fun id => .map (body.resolve_evolving id) _
  unfold Names.scope
  split
  · exact .pure _
  · exact .enter _

end Session

namespace Hosting

variable {P : EvalProperty} (h : Hosting P)
include h

theorem resolve {α : Type} {resolver : Resolver α} (evolving : resolver.Evolving) :
    P (Engine.resolve resolver) := by
  rw [Engine.resolve_eq]
  refine h.bind (h.memory (f := resolver.update) ?_) h.storage.orFault
  intro m
  unfold Resolver.update
  split
  · next a m' made => exact evolving m a m' made
  · exact .refl m

theorem classNamed (name : String) : P (Session.classNamed name) :=
  h.readFact (fun result => ∀ e, result = .error e → e.IsFresh) (fun _ => rfl)
    (fun _ _ => Library.constant_fresh) fun _ => h.orRaise

theorem classNamed? (name : Option String) : P (Session.classNamed? name) := by
  cases name with
  | none => exact h.pure _
  | some name => exact h.map (h.classNamed name) _

mutual

theorem operand (names : Session.Names) (operand : Session.Operand) : P (operand.value names) := by
  cases operand with
  | nil | bool | int | str | register => exact h.pure _
  | array items => exact h.map (operands names items) _
  | main => exact h.map (h.read fun _ => rfl) _
  | constant name => exact h.steering.constantValue name
  | fresh name => exact h.bind (h.classNamed name) fun cls => h.steering.newObject cls

theorem operands (names : Session.Names) (items : List Session.Operand) :
    P (Session.Operand.values names items) := by
  cases items with
  | nil => exact h.pure _
  | cons item rest => exact h.bind (operand names item) fun _ => h.map (operands names rest) _

end

theorem operand? (names : Session.Names) (operand : Option Session.Operand) :
    P (Session.Operand.value? names operand) := by
  cases operand with
  | none => exact h.pure _
  | some operand => exact h.map (h.operand names operand) _

theorem closure (names : Session.Names) (name : String) : P (names.closure name) :=
  h.steering.requireProc _

theorem closure? (names : Session.Names) (name : Option String) : P (names.closure? name) := by
  cases name with
  | none => exact h.pure _
  | some name => exact h.map (h.closure names name) _

theorem find (selector : Session.Selector) : P selector.find :=
  h.bind (h.classNamed _) fun _ => h.read fun _ => rfl

theorem resolveBlock (names : Session.Names)
    (block : BlockArg (Literal ScopeDecl Source) Session.Operand) :
    P (Session.resolveBlock names block) := by
  cases block with
  | absent => exact h.pure _
  | literal literal => exact h.map (h.resolve (Session.resolveLiteral_evolving literal)) _
  | pass value => exact h.map (h.operand names value) _

theorem withMethod (selector : Session.Selector) {body : MethodId → Eval Session.Finding}
    (holds : ∀ id, P (body id)) : P (Session.withMethod selector body) := by
  refine h.bind (h.find selector) fun found => ?_
  cases found with
  | none => exact h.pure _
  | some id => exact holds id

theorem define {cls : String} {decl : Session.MethodDecl} {visibility : Visibility}
    {config : Option CallConfig} {isSingleton isCompiled : Bool}
    (needs : (Session.Command.define cls decl visibility config isSingleton isCompiled).Needs P) :
    P (Session.define cls decl visibility config isSingleton isCompiled) := by
  refine h.bind (h.classNamed cls) fun owner => h.bind (h.resolve decl.resolve_evolving)
    fun definition => ?_
  have defines (body : MethodBody) (isNew : body.IsNew) :
      P (Session.defineBody owner decl body visibility config isSingleton) := by
    refine h.bind (needs owner body isNew) fun id => ?_
    dsimp only
    split
    · exact h.map (h.steering.bindSingleton _ _ _) _
    · exact h.map (h.steering.bindMethod _ _ _) _
  split
  · split
    · exact defines _ (.compiled _ _ _)
    · exact h.pure _
  · exact defines _ (.interpreted _)

theorem copyMethod {selector : Session.Selector} {toClass toName : String} {keepsOwner : Bool}
    {visibility : Option Visibility} {config : Option CallConfig} {toSingleton : Bool}
    (needs : (Session.Command.copyMethod selector toClass toName keepsOwner visibility config
      toSingleton).Needs P) (id : MethodId) :
    P (Session.copyMethod id toClass toName keepsOwner visibility config toSingleton) := by
  refine h.bind (h.classNamed toClass) fun cls => h.bind (needs id cls) fun copy => ?_
  have c := h.steering
  have told : P (do
      return Session.Info.copied ((← Eval.method copy).target ≠ (← Eval.method id).target)) :=
    c.method copy (fun _ => rfl) fun _ => c.method id (fun _ => rfl) fun _ => h.pure _
  dsimp only
  split
  · exact h.bind (c.bindSingleton cls toName copy) fun _ => told
  · exact h.bind (c.bindMethod cls toName copy) fun _ => told

theorem viewFrame (frame : Frame) : P (Session.viewFrame frame) := h.read fun s => by simp

theorem targetActive (target : Option Target) : P (Session.targetActive target) :=
  h.read fun _ => rfl

theorem lookAround (fuel : Nat) (config : CallConfig) (target : Option Target)
    (body : Option Node) : P (Session.lookAround fuel config target body) := by
  refine h.bind (h.read fun _ => rfl) fun depth => h.bind h.currentFrame fun frame =>
    h.bind (h.viewFrame frame) fun view => h.bind h.currentEnv fun env =>
    h.bind (h.read fun _ => rfl) fun hasVariables => h.bind (h.targetActive target) fun active =>
    h.bind (h.read fun _ => rfl) fun backtrace => ?_
  cases body with
  | none => exact h.pure _
  | some node =>
    exact h.bind (h.observe (h.evalNode fuel node)) fun outcome =>
      h.bind (h.read fun s => by simp) fun directory => h.pure _

theorem enter (fuel : Nat) (names : Session.Names) (entry : Session.Entry) :
    P (Session.enter fuel names entry) := by
  refine h.bind (h.operand names entry.self) fun self => h.bind (h.classNamed? entry.owner)
    fun owner => h.bind (h.closure? names entry.block) fun block => ?_
  refine h.bind ?_ fun scope => h.bind ?_ fun body => h.bind ?_ fun target => ?_
  · unfold Session.Entry.makeScope
    split
    · exact h.pure _
    · exact h.functorMap (h.resolve (.enter _)) _
  · unfold Session.Entry.makeBody
    split
    · exact h.pure _
    · exact h.functorMap (h.resolve (Session.resolveAlone_evolving _)) _
  · unfold Session.Entry.makeTarget
    split
    · exact h.functorMap h.newTarget _
    · exact h.pure _
  · refine h.bind (h.entering entry.config _ (h.lookAround fuel entry.config target body) ?_)
      fun inside => h.map (h.targetActive target) _
    exact fun aim _ => Catches.lookAround fuel entry.config target body aim

theorem runSource (fuel : Nat) (names : Session.Names) (body : Source) (vars : List String)
    (scope : Option String) : P (Session.runSource fuel names body vars scope) :=
  h.bind (h.resolve (Session.resolveIn_evolving names body vars scope)) fun _ =>
    h.runToplevel fuel _ _

theorem declare (names : Session.Names) (scope name : String) :
    P (Session.declare names scope name) :=
  h.bind (h.memory (f := fun m => ((), m.declare ((names.scopes.get? scope).getD 0) name))
    fun m => .declare m _ name) fun _ => h.read fun _ => rfl

theorem setCaptured (closure : ClosureId) (offset depth : Nat) (value : Value) :
    P (Session.setCaptured closure offset depth value) :=
  h.bind (h.steering.closure closure) fun _ => h.map (h.storage.writeVariable _ offset depth value) _

theorem defineClass (name : String) (superclass : Option ClassId) :
    P (Session.defineClass name superclass) :=
  h.steering.quiet (.library (fun l =>
    (Value.cls (l.defineClass name (superclass.getD Core.object)).1,
      (l.defineClass name (superclass.getD Core.object)).2)) (fun _ => rfl) fun _ => rfl)

theorem defineModule (name : String) : P (Session.defineModule name) :=
  h.steering.quiet (.library (fun l => (Value.cls (l.defineModule name).1, (l.defineModule name).2))
    (fun _ => rfl) fun _ => rfl)

theorem cloneClosure (id : ClosureId) : P (Engine.cloneClosure id) :=
  h.bind (h.steering.closure id) fun closure =>
    h.bind (h.memory (f := (·.clone closure.binding.env)) fun m => .clone m _) fun _ =>
      h.newClosure closure.body _ closure.kind

theorem globals (names : List String) : P (names.mapM Eval.global) := by
  induction names with
  | nil => exact h.pure _
  | cons name names ih =>
    rw [List.mapM_cons]
    exact h.bind (h.steering.global name) fun _ => h.map ih _

theorem viewClosure (id : ClosureId) : P (Session.viewClosure id) := by
  refine h.bind (h.steering.closure id) fun closure => h.bind (h.viewFrame _) fun frame =>
    h.bind (h.targetActive _) fun active => h.read fun s => ?_
  have view : s.bare.view = s.view := funext s.view_bare
  rw [view, s.arity_bare]
  cases closure.body with
  | literal => rfl
  | method id name =>
    dsimp only
    rw [show s.bare.shared.library = s.shared.library.plain from rfl, Library.method_plain]
    obtain ⟨owner, visibility, config, target, body⟩ := s.shared.library.method id
    cases body <;> rfl

theorem describe (value : Value) : P (Session.describe value) :=
  h.map (h.read fun s => by simp) _

theorem perform (fuel : Nat) (names : Session.Names) {command : Session.Command}
    (hides : command.hidesPromotion) (needs : command.Needs P) :
    P (Session.perform fuel names command) := by
  have c := h.steering
  cases command with
  | run body vars scope => exact h.map (h.runSource fuel names body vars scope) _
  | declare scope name => exact h.map (h.declare names scope name) _
  | eval body =>
    exact h.map (h.bind (h.resolve (Session.resolveAlone_evolving body)) fun node =>
      h.evalNode fuel node) _
  | send receiver name args =>
    exact h.map (h.bind (h.operand names receiver) fun receiver =>
      h.bind (h.operands names args) fun args => h.send fuel receiver name args) _
  | dispatch receiver name args block type =>
    exact h.map (h.bind (h.operand names receiver) fun receiver =>
      h.bind (h.operands names args) fun args => h.bind (h.resolveBlock names block) fun block =>
        h.dispatch fuel receiver name args block type) _
  | invoke selector receiver args block callName =>
    exact h.bind (h.operand names receiver) fun receiver => h.bind (h.operands names args)
      fun args => h.bind (h.closure? names block) fun block =>
        h.withMethod selector fun id => h.map (h.answer fuel _) _
  | method | outline => cases hides
  | define cls decl visibility config isSingleton isCompiled =>
    exact h.map (h.define needs) _
  | copyMethod selector toClass toName keepsOwner visibility config toSingleton =>
    exact h.withMethod selector fun id => h.map (h.copyMethod needs id) _
  | makeClosure literal kind =>
    exact h.map (h.bind (h.resolve (Session.resolveLiteral_evolving literal)) fun literal =>
      h.map (h.makeClosure _ kind) _) _
  | makeMethodClosure selector callName =>
    exact h.withMethod selector fun id => h.map (h.map (h.makeClosure _ .lambda) _) _
  | callClosure closure args =>
    exact h.map (h.bind (h.closure names closure) fun closure =>
      h.bind (h.operands names args) fun args => h.callClosure fuel closure args) _
  | yield closure value self cls isPacked =>
    exact h.map (h.bind (h.closure names closure) fun closure =>
      h.bind (h.operand names value) fun value => h.bind (h.operand? names self) fun self =>
        h.bind (h.classNamed? cls) fun cls => h.answer fuel _) _
  | cloneClosure closure =>
    exact h.map (h.bind (h.closure names closure) fun id => h.map (h.cloneClosure id) _) _
  | closure closure =>
    exact h.map (h.bind (h.closure names closure) fun id => h.map (h.viewClosure id) _) _
  | setCaptured closure offset depth value =>
    exact h.map (h.bind (h.closure names closure) fun closure =>
      h.bind (h.operand names value) fun value => h.setCaptured closure offset depth value) _
  | sameClosure left right =>
    exact h.map (h.bind (h.closure names left) fun left => h.bind (h.closure names right)
      fun right => h.bind (c.closure left) fun _ => h.map (c.closure right) _) _
  | defineClass name superclass =>
    exact h.map (h.bind (h.classNamed? superclass) fun superclass =>
      h.defineClass name superclass) _
  | defineModule name => exact h.map (h.defineModule name) _
  | openClass name superclass isModule =>
    exact h.map (h.map (h.steering.openClass name superclass isModule) _) _
  | cls name => exact h.map (h.bind (h.classNamed name) fun _ => h.read fun _ => rfl) _
  | inherits cls ancestor =>
    exact h.map (h.bind (h.classNamed cls) fun _ => h.bind (h.classNamed ancestor) fun _ =>
      h.read fun _ => rfl) _
  | classOf value => exact h.map (h.map (h.operand names value) _) _
  | describe value =>
    exact h.map (h.bind (h.operand names value) fun value => h.map (h.describe value) _) _
  | binary op left right =>
    exact h.map (h.bind (h.operand names left) fun left => h.bind (h.operand names right)
      fun right => c.applyBinary op left right) _
  | globals wanted => exact h.map (h.map (h.globals wanted) _) _
  | setGlobal name value =>
    exact h.map (h.bind (h.operand names value) fun value => h.map (c.setGlobal name value) _) _
  | interrupt => exact h.map (h.map (needs fun m id => ((), m.interrupt id)) _) _
  | poll => exact h.map (h.map h.poll _) _
  | frame => exact h.map (h.bind h.currentFrame fun frame => h.map (h.viewFrame frame) _) _
  | addHook hook =>
    exact h.map (needs fun m id =>
      (Session.Info.hookAdded m.nextId (m.add { hook with context := id }).isActive,
        m.add { hook with context := id })) _
  | removeHook id =>
    exact h.map (needs fun m _ =>
      (Session.Info.hookRemoved (m.canRemove id) (m.remove id).isActive, m.remove id)) _
  | enter entry => exact h.map (h.enter fuel names entry) _

/-- Where it does not matter what is read, every command has the property. -/
theorem performAny (reads : ∀ {α : Type} (view : State → α), P (Eval.read view)) (fuel : Nat)
    (names : Session.Names) {command : Session.Command} (needs : command.Needs P) :
    P (Session.perform fuel names command) := by
  cases hides : command.hidesPromotion with
  | true => exact h.perform fuel names hides needs
  | false =>
    cases command with
    | method selector => exact h.withMethod selector fun id => h.map (h.map (reads _) _) _
    | outline => exact h.map (reads _) _
    | _ => cases hides

end Hosting

theorem Sessional.needs {P : EvalProperty} (h : Sessional P) (command : Session.Command) :
    command.Needs P :=
  Session.Command.needs (fun boundless => h.update boundless.toLocal) fun _ => h.monitor

end CallEngine
