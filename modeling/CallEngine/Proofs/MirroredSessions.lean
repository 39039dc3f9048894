import CallEngine.Proofs.MirroredRuns
/-! Commands and sessions under other identities. -/
namespace CallEngine
open Eval

theorem Frame.view_renamed (ρ : Target → Target) (directory : Directory) (frame : Frame) :
    (frame.renamed ρ).view directory = frame.view directory := by
  simp [view, renamed]

theorem Session.Ending.ofOutcome_renamed {ρ : Target → Target} {aim aim' : Target → Aim}
    (same : ∀ target, aim' (ρ target) = aim target) (directory : Directory) (outcome : Outcome) :
    ofOutcome directory aim' (outcome.renamed ρ) = ofOutcome directory aim outcome := by
  rcases outcome with g | value
  · cases g with
    | leave target value => exact congrArg (leave · (value.view directory)) (same target)
    | stop target value =>
      cases target with
      | none => rfl
      | some target =>
        exact congrArg (fun aim => stop (some aim) (value.view directory)) (same target)
    | _ => rfl
  · rfl

theorem Session.context_renamed (ρ : Target → Target) (session : Session) (id : ContextId) :
    (session.renamed ρ).contexts.getD id default =
      (session.contexts.getD id default).renamed ρ := by
  simp only [renamed, List.getD_eq_getElem?_getD, List.getElem?_map]
  cases session.contexts[id]? <;> rfl

/-- Commands that give a class a method of another one. -/
def Session.Command.sharesMethod : Session.Command → Bool
  | .copyMethod _ _ _ keepsOwner .. => keepsOwner
  | _ => false

namespace Mirror

variable {c : Mirror}

namespace Mirrors

theorem resolve {α : Type} (resolver : Resolver α) :
    c.Mirrors id (Engine.resolve resolver) (Engine.resolve resolver) := by
  refine bind (g := id) (read fun _ => rfl) fun result => ?_
  cases result with
  | ok a memory => exact (Mirrors.memory fun _ => ((), memory)).map _
  | error fault _ => exact halt (.fault fault)

theorem classNamed (name : String) :
    c.Mirrors id (Session.classNamed name) (Session.classNamed name) :=
  bind (g := id) (read fun _ => rfl) fun result => orRaise result

theorem classNamed? (name : Option String) :
    c.Mirrors id (Session.classNamed? name) (Session.classNamed? name) := by
  cases name with
  | none => exact pure none
  | some name => exact (classNamed name).map _

mutual

theorem operand (names : Session.Names) (operand : Session.Operand) :
    c.Mirrors id (operand.value names) (operand.value names) := by
  cases operand with
  | nil | bool | int | str | register => exact pure _
  | array items => exact (operands names items).map _
  | main => exact bind (g := id) (read fun _ => rfl) fun main => pure (Value.object main)
  | constant name => exact constantValue name
  | fresh name => exact (classNamed name).bind fun cls => newObject cls

theorem operands (names : Session.Names) (items : List Session.Operand) :
    c.Mirrors id (Session.Operand.values names items) (Session.Operand.values names items) := by
  cases items with
  | nil => exact pure []
  | cons item rest => exact (operand names item).bind fun _ => (operands names rest).map _

end

theorem operand? (names : Session.Names) (operand : Option Session.Operand) :
    c.Mirrors id (Session.Operand.value? names operand) (Session.Operand.value? names operand) := by
  cases operand with
  | none => exact pure none
  | some operand => exact (Mirrors.operand names operand).map _

theorem find (selector : Session.Selector) : c.Mirrors id selector.find selector.find :=
  (classNamed selector.cls).bind fun _ => read fun _ => rfl

theorem resolveBlock (names : Session.Names)
    (block : BlockArg (Literal ScopeDecl Source) Session.Operand) :
    c.Mirrors id (Session.resolveBlock names block) (Session.resolveBlock names block) := by
  cases block with
  | absent => exact pure _
  | literal literal => exact (resolve _).map _
  | pass value => exact (operand names value).map _

theorem withMethod (selector : Session.Selector) {body : MethodId → Eval Session.Finding}
    (holds : ∀ source, c.Mirrors id (body source) (body source)) :
    c.Mirrors id (Session.withMethod selector body) (Session.withMethod selector body) := by
  refine (find selector).bind fun found => ?_
  cases found with
  | some source => exact holds source
  | none => exact pure _

theorem globals (names : List String) :
    c.Mirrors id (names.mapM Eval.global) (names.mapM Eval.global) := by
  induction names with
  | nil => exact pure []
  | cons name names ih =>
    rw [List.mapM_cons]
    exact (global name).bind fun _ => ih.map _

theorem declare (names : Session.Names) (scope name : String) :
    c.Mirrors id (Session.declare names scope name) (Session.declare names scope name) :=
  (Mirrors.memory fun m => ((), m.declare _ name)).bind fun _ => read fun _ => rfl

end Mirrors

namespace IsKept

variable (kept : c.IsKept)
include kept

theorem namedClosure (names : Session.Names) (name : String) :
    c.Mirrors id (names.closure name) (names.closure name) :=
  kept.requireProc _

theorem namedClosure? (names : Session.Names) (name : Option String) :
    c.Mirrors id (names.closure? name) (names.closure? name) := by
  cases name with
  | none => exact .pure none
  | some name => exact (kept.namedClosure names name).map _

theorem viewMethod (source : MethodId) :
    c.Mirrors id (Session.viewMethod source) (Session.viewMethod source) := by
  refine .read fun s => ?_
  rw [show (s.renamed c.rename).shared.library = s.shared.library.renamed c.rename from rfl,
    Library.method_renamed kept.zero]
  rfl

theorem viewFrame (frame : Frame) :
    c.Mirrors id (Session.viewFrame frame) (Session.viewFrame (frame.renamed c.rename)) :=
  .read fun s => by rw [s.directory_renamed kept.zero, Frame.view_renamed]; rfl

theorem targetActive (target : Option Target) :
    c.Mirrors id (Session.targetActive target) (Session.targetActive (target.map c.rename)) := by
  refine .read fun s => ?_
  cases target with
  | none => rfl
  | some target =>
    exact congrArg some (s.context.stack.isActive_renamed (kept.injective · _))

theorem viewClosure (closure : ClosureId) :
    c.Mirrors id (Session.viewClosure closure) (Session.viewClosure closure) := by
  refine (kept.closure closure).bind fun closure => ?_
  refine (kept.viewFrame closure.binding.frame).bind fun frame => ?_
  refine (kept.targetActive closure.binding.frame.jumpTarget).bind fun active => .read fun s => ?_
  have views : (s.renamed c.rename).view = s.view := funext (s.view_renamed kept.zero)
  have arity := s.shared.arity_renamed kept.zero closure
  have isLive := contains_renamed (kept.injective · closure.target) s.context.liveLiterals
  have methods := s.shared.library.method_renamed kept.zero
  obtain ⟨body, binding, target, kind⟩ := closure
  rw [views]
  refine (Session.CapturedView.mk.injEq ..).mpr
    ⟨rfl, arity, ?_, rfl, rfl, rfl, rfl, rfl, rfl, isLive, rfl⟩
  cases body with
  | literal literal => rfl
  | method source name =>
    have same : ((s.renamed c.rename).shared.library.method source).body =
        (s.shared.library.method source).body := (congrArg Method.body (methods source) :)
    simp only [Closure.renamed, same]

theorem describe (value : Value) :
    c.Mirrors id (Session.describe value) (Session.describe value) :=
  .bind (g := fun d : Directory => d) (.read fun s => s.directory_renamed kept.zero) fun _ => .pure _

theorem lookAround (fuel : Nat) (config : CallConfig) (target : Option Target)
    (body : Option Node) :
    c.Mirrors id (Session.lookAround fuel config target body)
      (Session.lookAround fuel config (target.map c.rename) body) := by
  refine .bind (g := id) (.read fun _ => rfl) fun depth => ?_
  refine Mirrors.currentFrame.bind fun frame => (kept.viewFrame frame).bind fun frame => ?_
  refine Mirrors.currentEnv.bind fun env => ?_
  refine .bind (g := id) (.read fun _ => rfl) fun hasVariables => ?_
  refine (kept.targetActive target).bind fun active => ?_
  refine .bind (g := fun b : List String => b)
    (.read fun s => s.context.stack.backtrace_renamed c.rename) fun backtrace => ?_
  cases body with
  | none => exact .pure _
  | some node =>
    refine (kept.evalNode fuel node).handle fun outcome => ?_
    refine .bind (g := fun d : Directory => d) (.read fun s => s.directory_renamed kept.zero)
      fun directory => ?_
    rw [Session.Ending.ofOutcome_renamed fun _ => rfl]
    exact .pure _

theorem freshTarget : c.Mirrors c.rename Session.freshTarget Session.freshTarget := by
  refine .update (fun s proper => ?_) fun s proper => .freshTarget proper
  have fresh := kept.freshTarget_renamed proper.shared
  rw [show (s.renamed c.rename).shared = s.shared.renamed c.rename from rfl, fresh]
  rfl

theorem makeTarget (entry : Session.Entry) :
    c.Mirrors (Option.map c.rename) entry.makeTarget entry.makeTarget := by
  refine .ite Iff.rfl ?_ (.pure none)
  rw [map_eq_pure_bind]
  exact kept.freshTarget.bind fun target => .pure (some target)

omit kept in
theorem makeTarget_given {entry : Session.Entry} {s t : State} {target : Option Target}
    (proper : c.Proper s) (made : entry.makeTarget s = .ok target t) :
    t.shared.Gave c.first target.toList := by
  unfold Session.Entry.makeTarget at made
  split at made <;> cases made
  · exact proper.shared.next_given (Nat.lt_succ_self s.shared.nextTarget)
  · exact fun _ => nofun

/-- The new identity may be put into a frame. -/
theorem enter (fuel : Nat) (names : Session.Names) (entry : Session.Entry) :
    c.Mirrors id (Session.enter fuel names entry) (Session.enter fuel names entry) := by
  have makeScope : c.Mirrors id entry.makeScope entry.makeScope := by
    unfold Session.Entry.makeScope
    split
    · exact .pure none
    · rw [map_eq_pure_bind]
      exact (Mirrors.resolve _).map _
  have makeBody : c.Mirrors id entry.makeBody entry.makeBody := by
    unfold Session.Entry.makeBody
    split
    · exact .pure none
    · rw [map_eq_pure_bind]
      exact (Mirrors.resolve _).map _
  refine (Mirrors.operand names entry.self).bind fun self => ?_
  refine (Mirrors.classNamed? entry.owner).bind fun owner => ?_
  refine (kept.namedClosure? names entry.block).bind fun block => ?_
  refine makeScope.bind fun scope => makeBody.bind fun body s proper => ?_
  refine (kept.makeTarget entry s proper).bind fun target t made later => ?_
  have given := makeTarget_given proper made
  let call : Invocation :=
    { self, owner, name := entry.name, arity := entry.arity, argCount := entry.argCount, block,
      scope, target, isBuiltin := entry.isBuiltin }
  refine (Mirrors.entering entry.config call later.proper given
    (kept.lookAround fuel entry.config target body)).bind fun inside u _ later' => ?_
  exact ((kept.targetActive target).map _) u later'.proper

section commands

theorem defineBody (cls : ClassId) (decl : Session.MethodDecl) (body : MethodBody)
    (visibility : Visibility) (config : Option CallConfig) (isSingleton : Bool) :
    c.Mirrors id (Session.defineBody cls decl body visibility config isSingleton)
      (Session.defineBody cls decl body visibility config isSingleton) := by
  intro s proper
  let method (target : Target) : Method :=
    ⟨cls, visibility, config.getD .frameAndScope, target, body⟩
  refine (kept.addMethod method (fun _ => rfl) (fun _ => rfl) s proper).bind
    fun made t added later => ?_
  have owned := addMethod_owns (fun _ => rfl) added
  cases isSingleton with
  | true =>
    exact (kept.bindSingleton later.proper (.inr owned) decl.name).bind fun _ u _ last =>
      Mirrors.pure _ u last.proper
  | false =>
    exact (kept.bindMethod later.proper (.inr owned) decl.name).bind fun _ u _ last =>
      Mirrors.pure _ u last.proper

theorem define (cls : String) (decl : Session.MethodDecl) (visibility : Visibility)
    (config : Option CallConfig) (isSingleton isCompiled : Bool) :
    c.Mirrors id (Session.define cls decl visibility config isSingleton isCompiled)
      (Session.define cls decl visibility config isSingleton isCompiled) := by
  refine (Mirrors.classNamed cls).bind fun cls => (Mirrors.resolve _).bind fun definition => ?_
  refine .ite Iff.rfl ?_ (kept.defineBody cls decl _ visibility config isSingleton)
  dsimp only [id]
  split
  · exact kept.defineBody cls decl _ visibility config isSingleton
  · exact .pure _

theorem copyMethodTo (source : MethodId) (toClass toName : String) (keepsOwner : Bool)
    (visibility : Option Visibility) (config : Option CallConfig) (toSingleton : Bool)
    (allowed : keepsOwner → c.loose) :
    c.Mirrors id
      (Session.copyMethod source toClass toName keepsOwner visibility config toSingleton)
      (Session.copyMethod source toClass toName keepsOwner visibility config toSingleton) := by
  refine (Mirrors.classNamed toClass).bind fun cls s proper => ?_
  let change (m : Method) : Method :=
    { m with
      owner := if keepsOwner then m.owner else cls
      visibility := visibility.getD m.visibility
      config := config.getD m.config }
  refine (kept.copyMethod source change (fun _ => rfl) (fun _ => rfl) s proper).bind
    fun copy t copied later => ?_
  have owned : c.loose ∨ t.shared.library.Owns cls copy := by
    cases keepsOwner with
    | true => exact .inl (allowed rfl)
    | false => exact .inr (copyMethod_owns rfl copied)
  have differs : c.Mirrors id
      (do return Session.Info.copied ((← Eval.method copy).target ≠ (← Eval.method source).target))
      (do return Session.Info.copied ((← Eval.method copy).target ≠ (← Eval.method source).target)) := by
    refine (kept.method copy).bind fun new => (kept.method source).bind fun old => ?_
    have same : (new.renamed c.rename).target = (old.renamed c.rename).target ↔
        new.target = old.target := ⟨kept.injective _ _, congrArg c.rename⟩
    simp only [ne_eq, same]
    exact .pure _
  cases toSingleton with
  | true =>
    exact (kept.bindSingleton later.proper owned toName).bind fun _ u _ last =>
      differs u last.proper
  | false =>
    exact (kept.bindMethod later.proper owned toName).bind fun _ u _ last => differs u last.proper

theorem cloneClosure (closure : ClosureId) :
    c.Mirrors id (Engine.cloneClosure closure) (Engine.cloneClosure closure) := by
  intro s proper
  refine (kept.closure closure s proper).bind fun own t looked later => ?_
  cases looked
  have captured := (proper.shared.captured_given closure).duplicate
  dsimp only
  generalize s.shared.closure closure = own at captured
  refine (Mirrors.memory (·.clone own.binding.env) s proper).bind fun env u _ later' => ?_
  let binding : Binding := { own.binding with frame := own.binding.frame.duplicate, env }
  exact kept.newClosure later'.proper binding own.body own.kind (later'.gave captured)

omit kept in
theorem classNamed?_ok {name : Option String} {parent : Option ClassId} {s t : State}
    (named : Session.classNamed? name s = .ok parent t) :
    t = s ∧ ∀ id, parent = some id → ∃ constant, s.shared.library.constant constant = .ok id := by
  cases name with
  | none =>
    cases named
    exact ⟨rfl, nofun⟩
  | some name =>
    simp only [Session.classNamed?, Session.classNamed, Bind.bind, EStateM.bind, Eval.read] at named
    cases found : s.shared.library.constant name with
    | error e =>
      rw [found] at named
      cases named
    | ok id =>
      rw [found] at named
      cases named
      refine ⟨rfl, fun other same => ?_⟩
      cases same
      exact ⟨name, found⟩

theorem defineClass (name : String) (superclass : Option String) :
    c.Mirrors id (Session.classNamed? superclass >>= Session.defineClass name)
      (Session.classNamed? superclass >>= Session.defineClass name) := by
  intro s proper
  refine (Mirrors.classNamed? superclass s proper).bind fun parent t named later => ?_
  obtain ⟨rfl, known⟩ := classNamed?_ok named
  exact ⟨rfl, .library proper rfl (kept.defines name known proper.tidy) (.register ..)⟩

theorem defineModule (name : String) :
    c.Mirrors id (Session.defineModule name) (Session.defineModule name) :=
  .update (fun _ _ => rfl) fun _ proper =>
    .library proper rfl (kept.definesModule name proper.tidy) (.register ..)

theorem setCaptured (closure : ClosureId) (offset depth : Nat) (value : Value) :
    c.Mirrors id (Session.setCaptured closure offset depth value)
      (Session.setCaptured closure offset depth value) :=
  (kept.closure closure).bind fun own =>
    ((Mirrors.storage c).writeVariable own.binding.env offset depth value).map _

theorem sameClosure (left right : ClosureId) :
    c.Mirrors id
      (do
        return Session.Info.sameness (left == right)
          ((← Eval.closure left).target = (← Eval.closure right).target))
      (do
        return Session.Info.sameness (left == right)
          ((← Eval.closure left).target = (← Eval.closure right).target)) := by
  refine (kept.closure left).bind fun own => (kept.closure right).bind fun other => ?_
  have same : (own.renamed c.rename).target = (other.renamed c.rename).target ↔
      own.target = other.target := ⟨kept.injective _ _, congrArg c.rename⟩
  simp only [same]
  exact .pure _

/-- A command that may not give a class a method of another one keeps the library tidy. -/
theorem perform (fuel : Nat) (names : Session.Names) {command : Session.Command}
    (allowed : command.sharesMethod → c.loose) :
    c.Mirrors id (Session.perform fuel names command) (Session.perform fuel names command) := by
  have asks := kept.answer fuel
  have values := Mirrors.operand (c := c) names
  have lists := Mirrors.operands (c := c) names
  have closures := kept.namedClosure names
  cases command with
  | run body vars scope =>
    refine .map ((Mirrors.resolve _).bind fun made => ?_) _
    exact (toplevelOf made.1 (kept.evalNode fuel made.2)).surfaced
  | declare scope name => exact (Mirrors.declare names scope name).map _
  | eval body => exact .map ((Mirrors.resolve _).bind fun node => kept.evalNode fuel node) _
  | send receiver name args =>
    exact .map ((values receiver).bind fun receiver => (lists args).bind fun args =>
      (kept.callMethod asks receiver name args none .normal).surfaced) _
  | dispatch receiver name args block type =>
    exact .map ((values receiver).bind fun receiver => (lists args).bind fun args =>
      (Mirrors.resolveBlock names block).bind fun block =>
        kept.dispatch asks receiver name args block type) _
  | invoke selector receiver args block callName =>
    exact (values receiver).bind fun receiver => (lists args).bind fun args =>
      (kept.namedClosure? names block).bind fun block =>
        .withMethod selector fun source => (asks _).map _
  | method selector => exact .withMethod selector fun source => ((kept.viewMethod source).map _).map _
  | define cls decl visibility config isSingleton isCompiled =>
    exact (kept.define cls decl visibility config isSingleton isCompiled).map _
  | copyMethod selector toClass toName keepsOwner visibility config toSingleton =>
    exact .withMethod selector fun source => (kept.copyMethodTo source toClass toName keepsOwner
      visibility config toSingleton allowed).map _
  | makeClosure literal kind =>
    exact .map ((Mirrors.resolve _).bind fun literal => kept.makeProc literal kind) _
  | makeMethodClosure selector callName =>
    exact .withMethod selector fun source => ((kept.makeClosure _ .lambda).map _).map _
  | callClosure closure args =>
    exact .map ((closures closure).bind fun closure => (lists args).bind fun args =>
      kept.callClosure asks closure args) _
  | yield closure value self cls isPacked =>
    exact .map ((closures closure).bind fun closure => (values value).bind fun value =>
      (Mirrors.operand? names self).bind fun self => (Mirrors.classNamed? cls).bind fun cls =>
        asks _) _
  | cloneClosure closure =>
    exact .map ((closures closure).bind fun closure => (kept.cloneClosure closure).map _) _
  | closure closure =>
    exact .map ((closures closure).bind fun closure => (kept.viewClosure closure).map _) _
  | setCaptured closure offset depth value =>
    exact .map ((closures closure).bind fun closure => (values value).bind fun value =>
      kept.setCaptured closure offset depth value) _
  | sameClosure left right =>
    exact .map ((closures left).bind fun left => (closures right).bind fun right =>
      kept.sameClosure left right) _
  | defineClass name superclass => exact (kept.defineClass name superclass).map _
  | defineModule name => exact (kept.defineModule name).map _
  | openClass name superclass isModule =>
    exact ((kept.openClass name superclass isModule).map _).map _
  | cls name => exact .map ((Mirrors.classNamed name).bind fun _ => .read fun _ => by rfl) _
  | inherits cls ancestor =>
    exact .map ((Mirrors.classNamed cls).bind fun _ => (Mirrors.classNamed ancestor).bind fun _ =>
      .read fun _ => by rfl) _
  | classOf value => exact ((values value).map _).map _
  | describe value => exact .map ((values value).bind fun value => (kept.describe value).map _) _
  | binary op left right =>
    exact .map ((values left).bind fun left => (values right).bind fun right =>
      .applyBinary kept.zero op left right) _
  | globals wanted => exact ((Mirrors.globals wanted).map _).map _
  | setGlobal name value =>
    exact .map ((values value).bind fun value => (Mirrors.setGlobal name value).map _) _
  | interrupt =>
    exact ((Mirrors.changeMonitor fun monitor id => ((), monitor.interrupt id)).map _).map _
  | poll => exact (Mirrors.poll.map _).map _
  | frame =>
    exact .map (Mirrors.currentFrame.bind fun frame => (kept.viewFrame frame).map _) _
  | outline => exact .map (.read fun _ => by rfl) _
  | addHook hook =>
    exact (Mirrors.changeMonitor fun monitor id =>
      (Session.Info.hookAdded monitor.nextId (monitor.add { hook with context := id }).isActive,
        monitor.add { hook with context := id })).map _
  | removeHook id =>
    exact (Mirrors.changeMonitor fun monitor _ =>
      (Session.Info.hookRemoved (monitor.canRemove id) (monitor.remove id).isActive,
        monitor.remove id)).map _
  | enter entry => exact (kept.enter fuel names entry).map _

end commands

end IsKept

/-- What is known of every state in the course of a session. -/
structure Settled (c : Mirror) (session : Session) : Prop where
  shared : session.shared.Numbered c.first
  contexts : ∀ context ∈ session.contexts, session.shared.Gave c.first context.identities
  tidy : c.tidy session.shared.library

namespace Settled

variable {session : Session} (settled : c.Settled session)
include settled

theorem state (id : ContextId) :
    c.Proper ⟨session.shared, session.contexts.getD id default⟩ := by
  refine ⟨⟨settled.shared, ?_⟩, settled.tidy⟩
  rw [List.getD_eq_getElem?_getD]
  cases found : session.contexts[id]? with
  | none => exact fun _ => nofun
  | some context => exact settled.contexts context (List.mem_of_getElem? found)

/-- A context of the session goes on. -/
theorem set {id : ContextId} {s : State}
    (later : c.Later ⟨session.shared, session.contexts.getD id default⟩ s) :
    c.Settled { session with shared := s.shared, contexts := session.contexts.set id s.context } := by
  refine ⟨later.proper.shared, fun context member => ?_, later.proper.tidy⟩
  rcases List.mem_or_eq_of_mem_set member with old | rfl
  · exact (settled.contexts context old).mono later.next
  · exact later.proper.context

theorem nameScope (command : Session.Command) : c.Settled (session.nameScope command) := by
  unfold Session.nameScope
  split
  · split
    · exact settled
    · refine ⟨settled.shared.of_eq rfl rfl rfl, fun context member => ?_, settled.tidy⟩
      exact (settled.contexts context member).mono (Nat.le_refl _)
  · exact settled

theorem keep (register : Option String) (result : Except Halt Session.Finding) :
    c.Settled (session.keep register result) := by
  unfold Session.keep
  split
  · split <;> exact ⟨settled.shared, settled.contexts, settled.tidy⟩
  · exact settled

theorem addContext : c.Settled session.addContext := by
  refine ⟨settled.shared.of_eq rfl rfl rfl, fun context member => ?_, settled.tidy⟩
  rcases List.mem_append.1 member with old | new
  · exact (settled.contexts context old).mono (Nat.le_refl _)
  · cases List.mem_singleton.1 new
    exact fun _ => nofun

theorem addContexts (count : Nat) : c.Settled (session.addContexts count) :=
  Session.addContexts_keeps (fun _ settled => settled.addContext) settled count

end Settled

namespace IsKept

variable (kept : c.IsKept) {session : Session}
include kept

/-- Registers are told apart by the identities of their closures. -/
theorem aim_renamed (target : Target) :
    (session.renamed c.rename).aim (c.rename target) = session.aim target := by
  have same (id : ClosureId) : ((session.renamed c.rename).shared.closure id).target =
      c.rename target ↔ (session.shared.closure id).target = target := by
    rw [show (session.renamed c.rename).shared = session.shared.renamed c.rename from rfl,
      Shared.closure_renamed kept.zero]
    exact ⟨kept.injective _ _, congrArg c.rename⟩
  simp only [Session.aim, same]
  rfl

theorem answerOf_renamed (context : Context) (result : Except Halt Session.Finding) :
    (session.renamed c.rename).answerOf (context.renamed c.rename)
        (result.mapError (Halt.renamed c.rename)) = session.answerOf context result := by
  have directory := State.directory_renamed kept.zero ⟨session.shared, context⟩
  have ending (outcome : Outcome) :
      Session.answerOf.ending (session.renamed c.rename) (context.renamed c.rename)
        (outcome.renamed c.rename) = Session.answerOf.ending session context outcome := by
    unfold Session.answerOf.ending
    exact directory ▸ Session.Ending.ofOutcome_renamed (kept.aim_renamed ·) _ outcome
  rcases result with halt | finding
  · cases halt with
    | signal g => exact congrArg Session.Answer.ending (ending (.error g))
    | fault | exhausted => rfl
  · cases finding with
    | value value => exact congrArg Session.Answer.ending (ending (.ok value))
    | info => rfl

omit kept in
theorem inContext_renamed (settled : c.Settled session) (id : ContextId)
    {body : Eval Session.Finding} (mirrors : c.Mirrors (fun a : Session.Finding => a) body body) :
    (session.renamed c.rename).inContext id body =
        ((session.inContext id body).1.mapError (Halt.renamed c.rename),
          (session.inContext id body).2.renamed c.rename) ∧
      c.Settled (session.inContext id body).2 := by
  obtain ⟨same, later⟩ := mirrors _ (settled.state id)
  unfold Session.inContext
  dsimp only
  rw [Session.context_renamed]
  change body ⟨(session.renamed c.rename).shared, _⟩ = _ at same
  rw [same]
  cases result : body ⟨session.shared, session.contexts.getD id default⟩ with
  | ok finding s | error halt s =>
    rw [result] at later
    refine ⟨?_, settled.set later⟩
    simp only [renamedResult, Session.renamed, List.map_set]
    rfl

omit kept in
theorem keep_renamed (session : Session) (register : Option String)
    (result : Except Halt Session.Finding) :
    (session.renamed c.rename).keep register (result.mapError (Halt.renamed c.rename)) =
      (session.keep register result).renamed c.rename := by
  rcases result with halt | finding
  · rfl
  · cases finding with
    | value value => cases register <;> rfl
    | info => rfl

theorem perform_renamed (settled : c.Settled session) (fuel : Nat) (names : Session.Names)
    {command : Session.Command} (allowed : command.sharesMethod → c.loose) (id : ContextId) :
    let s : State := ⟨session.shared, session.contexts.getD id default⟩
    Session.perform fuel names command ⟨(session.renamed c.rename).shared,
        (session.renamed c.rename).contexts.getD id default⟩ =
      renamedResult c.rename (fun a => a) (Session.perform fuel names command s) := by
  rw [Session.context_renamed]
  exact (kept.perform fuel names allowed _ (settled.state id)).same

theorem step_renamed (settled : c.Settled session) (fuel : Nat) {step : Session.Step}
    (allowed : step.command.sharesMethod → c.loose) :
    (session.renamed c.rename).step fuel step =
        ((session.step fuel step).1, (session.step fuel step).2.renamed c.rename) ∧
      c.Settled (session.step fuel step).2 := by
  have named : (session.renamed c.rename).nameScope step.command =
      (session.nameScope step.command).renamed c.rename := by
    unfold Session.nameScope
    split
    · rw [show (session.renamed c.rename).names = session.names from rfl]
      split <;> rfl
    · rfl
  have settled := settled.nameScope step.command
  obtain ⟨same, settled⟩ := inContext_renamed settled step.context
    (kept.perform fuel (session.nameScope step.command).names allowed)
  refine ⟨?_, settled.keep step.register _⟩
  unfold Session.step
  dsimp only
  rw [named, show ((session.nameScope step.command).renamed c.rename).names =
    (session.nameScope step.command).names from rfl, same]
  dsimp only
  rw [keep_renamed, Session.context_renamed, kept.answerOf_renamed]
  rfl

theorem run_renamed (settled : c.Settled session) (fuel : Nat) (steps : List Session.Step)
    (allowed : ∀ step ∈ steps, step.command.sharesMethod → c.loose) :
    (session.renamed c.rename).run fuel steps = session.run fuel steps ∧
      (session.renamed c.rename).after fuel steps = (session.after fuel steps).renamed c.rename ∧
      c.Settled (session.after fuel steps) := by
  induction steps generalizing session with
  | nil => exact ⟨rfl, rfl, settled⟩
  | cons first rest ih =>
    obtain ⟨same, settled⟩ := kept.step_renamed settled fuel (allowed first (.head _))
    obtain ⟨replies, states, settled⟩ :=
      ih settled fun step member => allowed step (.tail _ member)
    refine ⟨?_, ?_, settled⟩
    · simp only [Session.run, same, replies]
    · simp only [Session.after, same, states]

section start

theorem install_renamed {shared : Shared} (numbered : shared.Numbered c.first) (entry : Core.Entry) :
    (shared.renamed c.rename).install entry = (shared.install entry).renamed c.rename := by
  let method (target : Target) : Method :=
    ⟨entry.cls, entry.visibility, entry.config, target, .builtin entry.builtin⟩
  have added := kept.addMethod_renamed numbered method method fun _ => rfl
  unfold Shared.install
  simp only [added, method]
  rfl

/-- Built-in methods belong to the classes that have them. -/
theorem install_tidy {shared : Shared} (tidy : c.tidy shared.library) (entry : Core.Entry) :
    c.tidy (shared.install entry).library :=
  kept.binds entry.name (.inr (shared.library.owns_addMethod _)) (kept.adds _ tidy)

omit kept in
theorem addContexts_renamed (session : Session) (count : Nat) :
    (session.renamed c.rename).addContexts count = (session.addContexts count).renamed c.rename := by
  induction count generalizing session with
  | zero => rfl
  | succ count ih =>
    simp only [Session.addContexts]
    rw [← ih]
    simp [Session.renamed, Shared.renamed, Shared.newContext, Shared.newObject, Context.renamed,
      FrameStack.renamed, FrameStack.ofRoot, Frame.renamed]

/-- Which identity is the first one makes no difference to a session that starts, either. -/
theorem start_renamed (tidy : c.tidy ({} : Shared).withCoreClasses.library) (config : Config)
    (backend : Backend) (tellsCompiles : Bool) (hooks : List Hook) (contexts : Nat) :
    let start := Session.start config backend tellsCompiles hooks contexts
    (start c.first).renamed c.rename = start (c.rename ⟨c.first⟩).serial ∧
      c.Settled (start c.first) := by
  let classes (first : Nat) : Shared :=
    Shared.withCoreClasses { config, backend, nextTarget := first }
  have installs (entries : List Core.Entry) {shared : Shared}
      (numbered : shared.Numbered c.first) (tidy : c.tidy shared.library) :
      entries.foldl Shared.install (shared.renamed c.rename) =
          (entries.foldl Shared.install shared).renamed c.rename ∧
        (entries.foldl Shared.install shared).Numbered c.first ∧
        c.tidy (entries.foldl Shared.install shared).library := by
    induction entries generalizing shared with
    | nil => exact ⟨rfl, numbered, tidy⟩
    | cons entry entries ih =>
      let method (target : Target) : Method :=
        ⟨entry.cls, entry.visibility, entry.config, target, .builtin entry.builtin⟩
      have added : (shared.addMethod method).2.Numbered c.first := numbered.addMethod fun _ => rfl
      have later : (shared.install entry).Numbered c.first := added.of_eq rfl rfl rfl
      rw [List.foldl_cons, List.foldl_cons, kept.install_renamed numbered entry]
      exact ih later (kept.install_tidy tidy entry)
  have numbered : (classes c.first).Numbered c.first :=
    ⟨List.nodup_nil, fun _ given => absurd given List.not_mem_nil, Nat.le_refl _⟩
  obtain ⟨same, numbered, tidy⟩ := installs Core.methods numbered tidy
  have shared : (Shared.start config backend hooks c.first).renamed c.rename =
      Shared.start config backend hooks (c.rename ⟨c.first⟩).serial := by
    have first : (classes c.first).renamed c.rename = classes (c.rename ⟨c.first⟩).serial := by
      have methods : (classes c.first).library.methods = #[] := rfl
      have closures : (classes c.first).closures = #[] := rfl
      simp only [Shared.renamed, Library.renamed, methods, closures, Array.map_empty]
      rfl
    rw [first] at same
    simp only [Shared.start, Shared.withCoreMethods]
    rw [same]
    rfl
  have settled : c.Settled
      { shared := Shared.start config backend hooks c.first, contexts := [], tellsCompiles } :=
    ⟨numbered.of_eq rfl rfl rfl, fun _ member => absurd member List.not_mem_nil, tidy⟩
  refine ⟨?_, settled.addContexts contexts⟩
  dsimp only [Session.start]
  rw [← addContexts_renamed, ← shared]
  rfl

/-- What is known of every state is known after a session. -/
theorem after_proper (tidy : c.tidy ({} : Shared).withCoreClasses.library) (config : Config)
    (backend : Backend) (tellsCompiles : Bool) (hooks : List Hook) (contexts fuel : Nat)
    (steps : List Session.Step) (allowed : ∀ step ∈ steps, step.command.sharesMethod → c.loose)
    (id : ContextId) :
    let later := (Session.start config backend tellsCompiles hooks contexts c.first).after fuel steps
    c.Proper ⟨later.shared, later.contexts.getD id default⟩ := by
  obtain ⟨-, settled⟩ := kept.start_renamed tidy config backend tellsCompiles hooks contexts
  obtain ⟨-, -, settled⟩ := kept.run_renamed settled fuel steps allowed
  exact settled.state id

/-- What is known of every state is known after a session, and wherever a script then calls something. -/
theorem throughout (same : c.rename = id) (tidy : c.tidy ({} : Shared).withCoreClasses.library)
    (config : Config) (backend : Backend) (tellsCompiles : Bool) (hooks : List Hook)
    (contexts fuel : Nat) (steps : List Session.Step)
    (allowed : ∀ step ∈ steps, step.command.sharesMethod → c.loose) (id : ContextId) :
    let later := (Session.start config backend tellsCompiles hooks contexts c.first).after fuel steps
    let s : State := ⟨later.shared, later.contexts.getD id default⟩
    c.Proper s ∧ ∀ scope (node : Node) last request t,
      During (fun ask => Engine.toplevelOf scope (node.eval fuel ask)) fuel s last request t →
        c.Proper t := by
  intro later s
  have proper := kept.after_proper tidy config backend tellsCompiles hooks contexts fuel steps allowed
    id
  exact ⟨proper, fun scope node last request t reached => kept.during_toplevel same reached proper⟩

end start

end IsKept

end Mirror

end CallEngine
