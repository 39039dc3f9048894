import CallEngine.Proofs.Tandem
/-! What a session answers and leaves behind does not depend on when and whether bodies are
compiled, as long as code is what their trees are lowered to. -/
namespace CallEngine
open Eval

/-- A request is answered with the code of its body, or not at all. -/
def Backend.Faithful (backend : Backend) : Prop :=
  ∀ asked request code, backend asked request = .compiled code → request.body.lower = .ok code

/-- The code that a tree was promoted to is the code of that tree. -/
def Method.Faithful (m : Method) : Prop :=
  ∀ definition promotion code, m.body = .interpreted definition promotion →
    promotion.code = some code → definition.body.lower = .ok code

/-- The backend may do as it likes where it is not asked. -/
structure Shared.Faithful (shared : Shared) : Prop where
  backend : shared.config.mode ≠ .off → shared.backend.Faithful
  methods : ∀ id, (shared.library.method id).Faithful

namespace Backend

theorem lowering_faithful : lowering.Faithful := by
  intro asked request code answered
  unfold lowering compile at answered
  cases lowered : request.body.lower with
  | error construct =>
    rw [lowered] at answered
    cases answered
  | ok made =>
    rw [lowered] at answered
    cases answered
    rfl

theorem crashing_faithful : crashing.Faithful := fun _ _ _ => nofun

end Backend

/-- A method that was never called has no code yet. -/
theorem Method.faithful_of_plain {m : Method} (plain : m.plain = m) : m.Faithful := by
  intro definition promotion code body promoted
  rw [← plain] at body
  obtain ⟨owner, visibility, config, target, own⟩ := m
  cases own with
  | interpreted =>
    cases body
    cases promoted
  | compiled | builtin => cases body

theorem Local.faithful {α : Type} {f : State → α × State} (isLocal : Local f) (s : State)
    (faithful : s.shared.Faithful) : (f s).2.shared.Faithful where
  backend := by
    have backend : (f s).2.shared.backend = s.shared.backend :=
      (congrArg Surroundings.backend (isLocal.surroundings s) :)
    have config : (f s).2.shared.config = s.shared.config :=
      (congrArg Surroundings.config (isLocal.surroundings s) :)
    rw [backend, config]
    exact faithful.backend
  methods id := by
    have gains := isLocal.methods s
    by_cases old : id < s.shared.library.methods.size
    · exact gains.old old ▸ faithful.methods id
    · exact Method.faithful_of_plain (gains.new (Nat.not_lt.1 old))

/-- New code comes from the backend, and old code stays. -/
theorem Promotion.advance_code {promotion : Promotion} {config : Config} {backend : Backend}
    {id : MethodId} {request : CompileRequest} {stats : CompileStats} {code : Code}
    (faithful : config.mode ≠ .off → backend.Faithful)
    (before : ∀ code, promotion.code = some code → request.body.lower = .ok code)
    (after : (promotion.advance config backend id request stats).1.code = some code) :
    request.body.lower = .ok code := by
  unfold advance at after
  dsimp only at after
  split at after
  · exact before code after
  · split at after
    · next due =>
      have asked : config.mode ≠ .off := by
        intro off
        simp [isDue, CompileMode.shouldCompile, off] at due
      cases verdict : backend stats.requests.size request with
      | compiled made =>
        rw [verdict] at after
        cases after
        exact faithful asked _ _ _ verdict
      | refused | crashed =>
        rw [verdict] at after
        exact before code after
    · exact before code after

namespace State

variable (s : State) (id : MethodId) (name : String)

theorem promote_code {definition : Definition} {code : Code} (faithful : s.shared.Faithful)
    (body : (s.shared.library.method id).plain.body = .interpreted definition {})
    (promoted : (s.promote id name).1 = some code) : definition.body.lower = .ok code := by
  unfold promote at promoted
  dsimp only at promoted
  split at promoted
  · next own promotion was =>
    simp only [Method.plain, Method.renewed, was] at body
    cases body
    exact Promotion.advance_code faithful.backend
      (fun code => faithful.methods id definition promotion code was) promoted
  · cases promoted

theorem promote_faithful (faithful : s.shared.Faithful) :
    (s.promote id name).2.shared.Faithful := by
  unfold promote
  dsimp only
  split
  · next definition promotion body =>
    refine ⟨faithful.backend, fun other => ?_⟩
    rcases s.shared.library.method_setMethod id other _ with old | ⟨-, new⟩
    · exact old ▸ faithful.methods other
    · dsimp only
      rw [new]
      rintro _ _ code ⟨⟩ promoted
      exact Promotion.advance_code faithful.backend
        (fun code => faithful.methods id definition promotion code body) promoted
  · exact faithful

end State

theorem Eval.codeToRun_runs (run : Option Code → Eval Value) (s : State) (id : MethodId)
    (name : String) : (codeToRun id name >>= run) s =
      run (if (s.promote id name).2.shared.monitor.isActive then none else (s.promote id name).1)
        (s.promote id name).2 := by
  change ((Eval.read (·.shared.monitor.isActive) >>= fun isActive =>
    if isActive then pure none else pure (s.promote id name).1) >>= run) (s.promote id name).2 = _
  simp only [Bind.bind, EStateM.bind, Eval.read]
  cases (s.promote id name).2.shared.monitor.isActive <;> rfl

/-- Where code and tree do the same, it is as if only the count of calls had changed. -/
theorem Eval.codeToRun_bind {run : Option Code → Eval Value} {s : State} {id : MethodId}
    {definition : Definition} (name : String) (faithful : s.shared.Faithful)
    (body : (s.shared.library.method id).plain.body = .interpreted definition {})
    (same : ∀ code, definition.body.lower = .ok code → run (some code) = run none) :
    (codeToRun id name >>= run) s = run none (s.promote id name).2 := by
  rw [codeToRun_runs]
  split
  · rfl
  · cases promoted : (s.promote id name).1 with
    | none => rfl
    | some code => rw [same code (s.promote_code id name faithful body promoted)]

/-- Shared states of which it cannot be told how far promotion has come, unless the monitor lapses. -/
structure Hides (hidden : Shared → Prop) (lapsed : Monitor → Prop) : Prop where
  fire {monitor : Monitor} (event : Event) : lapsed monitor → lapsed (monitor.fire event)
  settle {monitor : Monitor} (id : ContextId) : lapsed monitor → lapsed (monitor.settle id)
  update {α : Type} {s : State} {f : State → α × State} : Local f → hidden s.shared →
    hidden (f s).2.shared
  monitor {shared : Shared} (monitor : Monitor) : hidden shared →
    lapsed monitor ∨ hidden { shared with monitor }
  promote {s : State} (id : MethodId) (name : String) : hidden s.shared →
    hidden (s.promote id name).2.shared
  /-- Where code and tree do the same, it is as if only the count of calls had changed. -/
  tree {run : Option Code → Eval Value} {s : State} {id : MethodId} {definition : Definition}
    (name : String) : hidden s.shared →
    (s.shared.library.method id).plain.body = .interpreted definition {} →
      (∀ code, definition.body.lower = .ok code → run (some code) = run none) →
        (codeToRun id name >>= run) s = run none (s.promote id name).2

/-- Equal but for how far the promotion of methods has come and what decides about it. -/
structure Alike (hidden : Shared → Prop) (s t : State) : Prop where
  plain : s.plain = t.plain
  left : hidden s.shared
  right : hidden t.shared

theorem Alike.context {hidden : Shared → Prop} {s t : State} (alike : Alike hidden s t) :
    s.context = t.context :=
  (congrArg State.context alike.plain :)

abbrev Comparison.hiding (hidden : Shared → Prop) (lapsed : Monitor → Prop) : Comparison where
  related := Alike hidden
  loses _ := False
  lapsed := lapsed

theorem Shared.Faithful.hides : Hides Shared.Faithful fun _ => False where
  fire _ := id
  settle _ := id
  update isLocal := isLocal.faithful _
  monitor _ faithful := .inr ⟨faithful.backend, faithful.methods⟩
  promote id name := State.promote_faithful _ id name
  tree := codeToRun_bind

namespace Hides

variable {hidden : Shared → Prop} {lapsed : Monitor → Prop} (hides : Hides hidden lapsed)
include hides

theorem kept : (Comparison.hiding hidden lapsed).IsKept where
  unrescuable _ := False.elim
  fire := hides.fire
  settle := hides.settle
  view {_ s t view} alike blind := by rw [← blind.plain s, alike.plain, blind.plain t]
  update {_ s t f} alike boundless := by
    have same : ((f s).1, (f s).2.plain) = ((f t).1, (f t).2.plain) := by
      rw [← boundless.plain s, ← boundless.plain t, alike.plain]
    obtain ⟨given, states⟩ := Prod.mk.inj same
    exact ⟨given, states, hides.update boundless.toLocal alike.left,
      hides.update boundless.toLocal alike.right⟩
  context {s t change} alike _ := by
    have plain : State.plain { s with context := change s.context } =
        State.plain { t with context := change t.context } :=
      (congrArg (fun s : State => { s with context := change s.context }) alike.plain :)
    exact ⟨plain, alike.left, alike.right⟩
  monitor {s t} alike change := by
    have plain : (s.monitored change).plain = (t.monitored change).plain :=
      (congrArg (·.monitored change) alike.plain :)
    have same : (s.monitored change).shared.monitor = (t.monitored change).shared.monitor :=
      (congrArg (fun s : State => s.shared.monitor) plain :)
    rcases hides.monitor (s.monitored change).shared.monitor alike.left with left | left
    · exact .inl left
    · rcases hides.monitor (t.monitored change).shared.monitor alike.right with right | right
      · exact .inl (same ▸ right)
      · exact .inr ⟨plain, left, right⟩
  push {s t} alike frame := by
    rw [← alike.context]
    cases push : s.context.stack.push frame with
    | error e => exact .inr ⟨e, rfl, .inr rfl⟩
    | ok stack =>
      have plain : (s.pushed stack).plain = (t.pushed stack).plain :=
        (congrArg (·.pushed stack) alike.plain :)
      exact .inl ⟨stack, stack, rfl, rfl, plain, alike.left, alike.right⟩
  promote {s t id definition} alike name own := by
    have method : (s.shared.library.method id).plain = (t.shared.library.method id).plain := by
      simpa [State.plain, Shared.plain] using
        congrArg (fun s : State => s.shared.library.method id) alike.plain
    refine ⟨⟨?_, hides.promote id name alike.left, hides.promote id name alike.right⟩, none,
      fun run same => ⟨hides.tree name alike.left own same,
        hides.tree name alike.right (method ▸ own) same⟩⟩
    rw [s.promote_plain, t.promote_plain, alike.plain]

theorem hosting : Hosting (Comparison.hiding hidden lapsed).Tandem :=
  hides.kept.hosting fun _ => id

/-- Commands that do not show how far promotion has come. They may change the monitor. -/
theorem perform (fuel : Nat) (names : Session.Names) {command : Session.Command}
    (hidesPromotion : command.hidesPromotion) {s t : State} (alike : Alike hidden s t) :
    (Comparison.hiding hidden lapsed).Ends (Session.perform fuel names command s)
      (Session.perform fuel names command t) := by
  cases changes : command.changesMonitor with
  | false =>
    have needs : command.Needs (Comparison.hiding hidden lapsed).Tandem :=
      Session.Command.needs hides.kept.modifyGet fun changed => absurd changed (by simp [changes])
    exact (hides.hosting.perform fuel names hidesPromotion needs).runs s t alike
  | true =>
    have give {α : Type} (a : α) := hides.kept.pure a
    cases command with
    | interrupt =>
      have changed := hides.kept.changeMonitor (fun monitor id => ((), monitor.interrupt id)) alike
      exact (changed.bind fun _ => give Session.Info.absent).bind fun _ => give _
    | addHook hook =>
      have changed := hides.kept.changeMonitor (fun monitor id =>
        (Session.Info.hookAdded monitor.nextId (monitor.add { hook with context := id }).isActive,
          monitor.add { hook with context := id })) alike
      exact changed.bind fun _ => give _
    | removeHook id =>
      have changed := hides.kept.changeMonitor (fun monitor _ =>
        (Session.Info.hookRemoved (monitor.canRemove id) (monitor.remove id).isActive,
          monitor.remove id)) alike
      exact changed.bind fun _ => give _
    | _ => cases changes

end Hides

namespace Session

/-- Without what promotion leaves behind, and as if requests to the backend were told. -/
def plain (session : Session) : Session :=
  { session with shared := session.shared.plain, tellsCompiles := true }

/-- Without what was compiled. -/
def Reply.plain (reply : Reply) : Reply := { reply with compiled := 0, failed := 0, compiles := [] }

structure Alike (hidden : Shared → Prop) (a b : Session) : Prop where
  shared : a.shared.plain = b.shared.plain
  left : hidden a.shared
  right : hidden b.shared
  contexts : a.contexts = b.contexts
  names : a.names = b.names

namespace Alike

variable {hidden : Shared → Prop} {lapsed : Monitor → Prop} {a b : Session}

theorem plain (alike : Alike hidden a b) : a.plain = b.plain := by
  simp only [Session.plain, alike.shared, alike.contexts, alike.names]

theorem monitor (alike : Alike hidden a b) : a.shared.monitor = b.shared.monitor :=
  (congrArg Shared.monitor alike.shared :)

theorem state (alike : Alike hidden a b) (id : ContextId) :
    CallEngine.Alike hidden ⟨a.shared, a.contexts.getD id default⟩
      ⟨b.shared, b.contexts.getD id default⟩ where
  plain := by
    simp only [State.plain, alike.shared, alike.contexts]
  left := alike.left
  right := alike.right

theorem inContext {α : Type} (alike : Alike hidden a b) (id : ContextId) {body : Eval α}
    (ends : (Comparison.hiding hidden lapsed).Ends
      (body ⟨a.shared, a.contexts.getD id default⟩) (body ⟨b.shared, b.contexts.getD id default⟩)) :
    lapsed (a.inContext id body).2.shared.monitor ∨
      (a.inContext id body).1 = (b.inContext id body).1 ∧
        Alike hidden (a.inContext id body).2 (b.inContext id body).2 := by
  unfold Session.inContext
  dsimp only
  generalize body ⟨a.shared, _⟩ = left at ends ⊢
  generalize body ⟨b.shared, _⟩ = right at ends ⊢
  cases ends with
  | ok value ends =>
    refine .inr ⟨rfl, congrArg State.shared ends.plain, ends.left, ends.right, ?_, alike.names⟩
    dsimp only
    rw [alike.contexts, ends.context]
  | error halt ends =>
    refine .inr ⟨rfl, congrArg State.shared ends.plain, ends.left, ends.right, ?_, alike.names⟩
    dsimp only
    rw [alike.contexts, ends.context]
  | fails fails => exact absurd fails (not_fails (fun _ loses => loses) _)
  | lapses lapsed => cases left <;> exact .inl lapsed

theorem keep (alike : Alike hidden a b) (register : Option String)
    (result : Except Halt Finding) :
    Alike hidden (a.keep register result) (b.keep register result) := by
  unfold Session.keep
  split
  · split
    · exact { alike with names := by rw [alike.names] }
    · exact alike
  · exact alike

theorem answerOf (alike : Alike hidden a b) (context : Context) (result : Except Halt Finding) :
    a.answerOf context result = b.answerOf context result := by
  have directory : State.directory ⟨a.shared, context⟩ = State.directory ⟨b.shared, context⟩ := by
    rw [← State.directory_plain, ← State.directory_plain ⟨b.shared, context⟩]
    simp only [State.plain, alike.shared]
  have closure : a.shared.closure = b.shared.closure := (congrArg Shared.closure alike.shared :)
  have aim : a.aim = b.aim := by
    funext target
    unfold Session.aim
    rw [closure, alike.names]
  have ending : answerOf.ending a context = answerOf.ending b context := by
    funext outcome
    unfold answerOf.ending
    rw [directory, aim]
  unfold Session.answerOf
  rw [ending]

section steps

variable (hides : Hides hidden lapsed)
include hides

theorem nameScope (alike : Alike hidden a b) (command : Command) :
    Alike hidden (a.nameScope command) (b.nameScope command) := by
  have memory : a.shared.memory = b.shared.memory := (congrArg Shared.memory alike.shared :)
  have change (memory : Memory) :
      Shared.plain { a.shared with memory } = Shared.plain { b.shared with memory } :=
    (congrArg (fun shared : Shared => { shared with memory }) alike.shared :)
  have stays {shared : Shared} (memory : Memory) (before : hidden shared) :
      hidden { shared with memory } :=
    hides.update (s := ⟨shared, default⟩) (.memory fun _ => ((), memory)) before
  unfold Session.nameScope
  split
  · rw [alike.names]
    split
    · exact alike
    · dsimp only
      rw [memory]
      exact ⟨change _, stays _ alike.left, stays _ alike.right, alike.contexts, rfl⟩
  · exact alike

theorem step (alike : Alike hidden a b) (fuel : Nat) {step : Step}
    (hidesPromotion : step.command.hidesPromotion) :
    lapsed (a.step fuel step).2.shared.monitor ∨
      (a.step fuel step).1.plain = (b.step fuel step).1.plain ∧
        Alike hidden (a.step fuel step).2 (b.step fuel step).2 := by
  have named := alike.nameScope hides step.command
  have ends := hides.perform fuel (a.nameScope step.command).names hidesPromotion
    (named.state step.context)
  have told := named.monitor
  have inside := named.inContext step.context ends
  unfold Session.step
  dsimp only
  rw [← named.names, ← told]
  generalize (a.nameScope step.command).inContext .. = left at inside ⊢
  generalize (b.nameScope step.command).inContext .. = right at inside ⊢
  obtain lapsed | ⟨result, inside⟩ := inside
  · left
    unfold Session.keep
    split
    · split <;> exact lapsed
    · exact lapsed
  · right
    rw [← result]
    have kept := inside.keep step.register left.1
    refine ⟨?_, kept⟩
    simp only [Reply.plain, kept.contexts, kept.answerOf, kept.monitor]

theorem addContexts (alike : Alike hidden a b) (count : Nat) :
    Alike hidden (a.addContexts count) (b.addContexts count) := by
  induction count generalizing a b with
  | zero => exact alike
  | succ count ih =>
    have made := congrArg (fun shared => (shared.newContext b.contexts.length)) alike.shared
    obtain ⟨context, shared⟩ := Prod.mk.inj made
    have stays {shared : Shared} (id : ContextId) (before : hidden shared) :
        hidden (shared.newContext id).2 := by
      have isLocal : Local fun s : State =>
          ((s.shared.newContext id).1, { s with shared := (s.shared.newContext id).2 }) :=
        ⟨fun _ => rfl, fun _ => rfl, fun _ => .of_eq rfl rfl rfl, fun _ => .of_eq rfl⟩
      exact hides.update (s := ⟨shared, default⟩) isLocal before
    refine ih ⟨?_, stays a.contexts.length alike.left, stays b.contexts.length alike.right, ?_,
      alike.names⟩
    · exact alike.contexts ▸ shared
    · dsimp only
      rw [alike.contexts]
      exact congrArg (fun context => b.contexts ++ [context]) context

/-- What one step keeps, all of them do, as long as the monitor does not lapse. -/
theorem after (alike : Alike hidden a b) (fuel : Nat) {steps : List Step}
    (hidesPromotion : ∀ step ∈ steps, step.command.hidesPromotion)
    (stays : ∀ count, ¬lapsed (a.after fuel (steps.take count)).shared.monitor) :
    (a.run fuel steps).map Reply.plain = (b.run fuel steps).map Reply.plain ∧
      Alike hidden (a.after fuel steps) (b.after fuel steps) := by
  induction steps generalizing a b with
  | nil => exact ⟨rfl, alike⟩
  | cons first rest ih =>
    obtain ⟨reply, next⟩ := (alike.step hides fuel (hidesPromotion first (.head _))).resolve_left
      (stays 1)
    obtain ⟨replies, last⟩ := ih next (fun step member => hidesPromotion step (.tail _ member))
      fun count => stays (count + 1)
    refine ⟨?_, last⟩
    simp only [Session.run, List.map_cons, reply, replies]

end steps

end Alike

end Session

namespace Shared

theorem install_plain (shared : Shared) (entry : Core.Entry) :
    shared.plain.install entry = (shared.install entry).plain := by
  let m : Method :=
    ⟨entry.cls, entry.visibility, entry.config, ⟨shared.nextTarget⟩, .builtin entry.builtin⟩
  have added : shared.library.plain.addMethod m =
      ((shared.library.addMethod m).1, (shared.library.addMethod m).2.plain) :=
    shared.library.plain_addMethod m
  simp only [install, Shared.addMethod, freshTarget, Shared.plain]
  rw [added]
  rfl

theorem install_all_plain (entries : List Core.Entry) (shared : Shared) :
    entries.foldl install shared.plain = (entries.foldl install shared).plain := by
  induction entries generalizing shared with
  | nil => rfl
  | cons entry entries ih => rw [List.foldl_cons, install_plain, ih, List.foldl_cons]

theorem start_plain {config config' : Config} (backend backend' : Backend)
    (same : config.depthLimit = config'.depthLimit) (hooks : List Hook) (firstTarget : Nat) :
    (Shared.start config backend hooks firstTarget).plain =
      (Shared.start config' backend' hooks firstTarget).plain := by
  let bare (config : Config) (backend : Backend) : Shared :=
    withCoreClasses { config, backend, nextTarget := firstTarget }
  have bare_plain : (bare config backend).plain = (bare config' backend').plain := by
    simp only [bare, withCoreClasses, Shared.plain, same]
  have core : (bare config backend).withCoreMethods.plain =
      (bare config' backend').withCoreMethods.plain := by
    unfold withCoreMethods
    rw [← install_all_plain, bare_plain, install_all_plain]
  exact congrArg (fun shared : Shared =>
    { shared with monitor := hooks.foldl Monitor.add shared.monitor }) core

theorem install_faithful {shared : Shared} (faithful : shared.Faithful) (entry : Core.Entry) :
    (shared.install entry).Faithful := by
  refine ⟨faithful.backend, fun id => ?_⟩
  change ((shared.library.addMethod _).2.method id).Faithful
  rw [Library.method_addMethod]
  split
  · exact Method.faithful_of_plain rfl
  · exact faithful.methods id

theorem start_faithful {config : Config} {backend : Backend}
    (faithful : config.mode ≠ .off → backend.Faithful) (hooks : List Hook) (firstTarget : Nat) :
    (Shared.start config backend hooks firstTarget).Faithful := by
  let bare := withCoreClasses { config, backend, nextTarget := firstTarget }
  have before : bare.Faithful := ⟨faithful, fun _ => Method.faithful_of_plain rfl⟩
  have core : bare.withCoreMethods.Faithful :=
    List.foldlRecOn Core.methods install before fun _ faithful entry _ =>
      install_faithful faithful entry
  exact ⟨core.backend, core.methods⟩

end Shared

/-- Fresh sessions with the same contexts and hooks. -/
theorem Hides.start {hidden : Shared → Prop} {lapsed : Monitor → Prop}
    (hides : Hides hidden lapsed) {config config' : Config} {backend backend' : Backend}
    (sameLimit : config.depthLimit = config'.depthLimit) {hooks : List Hook} {firstTarget : Nat}
    (left : hidden (Shared.start config backend hooks firstTarget))
    (right : hidden (Shared.start config' backend' hooks firstTarget)) (tells tells' : Bool)
    (contexts : Nat) :
    Session.Alike hidden (Session.start config backend tells hooks contexts firstTarget)
      (Session.start config' backend' tells' hooks contexts firstTarget) := by
  have plain := Shared.start_plain backend backend' sameLimit hooks firstTarget
  have bare : Session.Alike hidden
      ⟨Shared.start config backend hooks firstTarget, [], {}, tells⟩
      ⟨Shared.start config' backend' hooks firstTarget, [], {}, tells'⟩ :=
    ⟨plain, left, right, rfl, rfl⟩
  exact bare.addContexts hides contexts

/-- Sessions that differ in what is compiled, and when, answer alike and leave the same behind:
contexts with their globals, variables, methods, hooks and events. -/
theorem promotion_invisible {config config' : Config} {backend backend' : Backend}
    (faithful : backend.Faithful) (faithful' : backend'.Faithful)
    (sameLimit : config.depthLimit = config'.depthLimit) (tells tells' : Bool) (hooks : List Hook)
    (contexts firstTarget fuel : Nat) {steps : List Session.Step}
    (hides : ∀ step ∈ steps, step.command.hidesPromotion) :
    let session := Session.start config backend tells hooks contexts firstTarget
    let session' := Session.start config' backend' tells' hooks contexts firstTarget
    (session.run fuel steps).map Session.Reply.plain =
        (session'.run fuel steps).map Session.Reply.plain ∧
      (session.after fuel steps).plain = (session'.after fuel steps).plain := by
  intro session session'
  have alike : Session.Alike Shared.Faithful session session' :=
    Shared.Faithful.hides.start sameLimit (Shared.start_faithful (fun _ => faithful) hooks firstTarget)
      (Shared.start_faithful (fun _ => faithful') hooks firstTarget) tells tells' contexts
  obtain ⟨replies, last⟩ := alike.after Shared.Faithful.hides fuel hides fun _ => id
  exact ⟨replies, last.plain⟩

/-- A method that is compiled at its first call, or never. -/
theorem promotion_invisible_first_call :
    let define : Source := .define "one" {} {} (.int 1)
    let steps : List Session.Step :=
      [{ command := .run (.seq [define, .bareCall "one"]) [] none }]
    let forced := Session.start { mode := .force } .lowering true [] 1 1
    let interpreted := Session.start { mode := .off } .crashing true [] 1 1
    (forced.after 5 steps).shared.stats.compiled = 1 ∧
      (interpreted.after 5 steps).shared.stats.compiled = 0 ∧
      (forced.run 5 steps).map Session.Reply.plain =
        (interpreted.run 5 steps).map Session.Reply.plain := by
  intro define steps forced interpreted
  have sameLimit : ({ mode := .force } : Config).depthLimit =
      ({ mode := .off } : Config).depthLimit := rfl
  have hides : ∀ step ∈ steps, step.command.hidesPromotion := by
    intro step member
    exact List.mem_singleton.1 member ▸ rfl
  have invisible := promotion_invisible Backend.lowering_faithful Backend.crashing_faithful
    sameLimit true true [] 1 1 5 hides
  exact ⟨by decide +kernel, by decide +kernel, invisible.1⟩

end CallEngine
