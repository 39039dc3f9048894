import CallEngine.Proofs.Postconditions
/-! Identities are given out in order. A closure that exists keeps its own, a new one has one that
no closure had before, and only literals that exist count as live. -/
namespace CallEngine

theorem Shared.Orderly.of_eq {shared later : Shared} (orderly : shared.Orderly)
    (nextTarget : later.nextTarget = shared.nextTarget)
    (closures : later.closures = shared.closures)
    (methods : later.library.methods = shared.library.methods) : later.Orderly :=
  (Extends.of_eq nextTarget closures methods).orderly orderly

theorem Shared.Orderly.of_builtin {shared : Shared}
    (closures : ∀ id, (shared.closure id).target.serial < shared.nextTarget)
    (noBody : ∀ id, ¬(shared.library.method id).HasBody) : shared.Orderly where
  closures := closures
  methods id hasBody := absurd hasBody (noBody id)
  oneMethod id _ hasBody := absurd hasBody (noBody id)
  noLambda id _ hasBody := absurd hasBody (noBody id)

/-- The identities of live literals have been given out, too. -/
structure State.Orderly (s : State) : Prop where
  shared : s.shared.Orderly
  live : ∀ target ∈ s.context.liveLiterals, target.serial < s.shared.nextTarget

structure State.Advances (s t : State) : Prop where
  shared : s.shared.Extends t.shared
  orderly : s.Orderly → t.Orderly

namespace State.Advances

theorem of_live {s t : State} (shared : s.shared.Extends t.shared)
    (live : t.context.liveLiterals ⊆ s.context.liveLiterals) : s.Advances t where
  shared := shared
  orderly before :=
    ⟨shared.orderly before.shared, fun target member =>
      Nat.lt_of_lt_of_le (before.live target (live member)) shared.nextTarget⟩

theorem refl (s : State) : s.Advances s := ⟨.refl s.shared, id⟩

theorem trans {s t u : State} (first : s.Advances t) (second : t.Advances u) : s.Advances u :=
  ⟨first.shared.trans second.shared, fun before => second.orderly (first.orderly before)⟩

/-- A closure that exists becomes live. -/
theorem enterLive (s : State) (id : ClosureId) :
    s.Advances (s.enterLive (s.shared.closure id).target) where
  shared := .refl s.shared
  orderly before := by
    refine ⟨before.shared, fun target member => ?_⟩
    rcases List.mem_cons.1 member with rfl | member
    · exact before.shared.closures id
    · exact before.live target member

theorem leaveLive (s : State) (target : Target) : s.Advances (s.leaveLive target) :=
  of_live (.refl s.shared) List.erase_subset

theorem promote (s : State) (id : MethodId) (name : String) : s.Advances (s.promote id name).2 := by
  unfold State.promote
  dsimp only
  split
  · next definition promotion own =>
    refine of_live (.of_same rfl rfl fun other => ?_) (List.Subset.refl _)
    rcases s.shared.library.method_setMethod id other _ with old | ⟨rfl, new⟩
    · exact ⟨old ▸ .rfl, congrArg Method.target old⟩
    · refine ⟨⟨fun _ builtin same => ?_, fun _ builtin same => ?_⟩, (congrArg Method.target new :)⟩
      · cases own.symm.trans same
      · cases (congrArg Method.body new).symm.trans same
  · exact refl s

end State.Advances

/-- What a closure that is made under the frame remembers. -/
def Frame.capture (frame : Frame) (env : Env) : Binding :=
  { self := frame.self, frame := frame.duplicate, visibility := frame.visibility, cls := frame.cls,
    env }

/-- A closure is made under the innermost frame and has the next identity. -/
theorem Eval.makeClosure_ok {body : ClosureBody} {kind : ClosureKind} {s t : State} {id : ClosureId}
    (ends : makeClosure body kind s = .ok id t) :
    ∃ frame env, s.context.stack.current = .ok frame ∧
      t.shared.closure id = s.shared.made body (frame.capture env) kind ∧
      t = { s with shared := (s.shared.addClosure body (frame.capture env) kind).2 } := by
  unfold makeClosure at ends
  cases current : s.context.stack.current with
  | error fault =>
    rw [bind_error (currentFrame_error current)] at ends
    cases ends
  | ok frame =>
    rw [bind_ok (currentFrame_ok current)] at ends
    cases scopes : s.context.scopes with
    | nil =>
      rw [bind_error (currentEnv_nil scopes)] at ends
      cases ends
    | cons env outer =>
      rw [bind_ok (currentEnv_cons scopes)] at ends
      cases ends
      refine ⟨frame, env, rfl, ?_, rfl⟩
      exact (s.shared.closure_added body (frame.capture env) kind _).trans (if_pos rfl)

theorem State.Advances.update {α : Type} {f : State → α × State} (isLocal : Local f) (s : State) :
    s.Advances (f s).2 :=
  .of_live (isLocal.identities s) ((isLocal.restored s).live ▸ List.Subset.refl _)

theorem State.Advances.motion : FreeMotion State.Advances where
  refl := .refl
  trans := .trans
  stack s _ := .of_live (.refl s.shared) (List.Subset.refl _)
  scopes s _ := .of_live (.refl s.shared) (List.Subset.refl _)
  enterLive := .enterLive
  leaveLive := .leaveLive
  settle _ := .of_live (.of_eq rfl rfl rfl) (List.Subset.refl _)
  fire _ _ := .of_live (.of_eq rfl rfl rfl) (List.Subset.refl _)
  promote := .promote
  quiet quiet := .update quiet.toLocal
  memory _ _ := .of_live (.of_eq rfl rfl rfl) (List.Subset.refl _)
  newClosure s body binding kind :=
    .of_live (.addClosure s.shared body binding kind) (List.Subset.refl _)
  newMethod s owner visibility definition := .update (.newMethod owner visibility definition) s

abbrev Advancing : EvalProperty := Moves State.Advances

namespace Advancing

theorem sessional : Sessional Advancing :=
  State.Advances.motion.sessional
    (fun _ _ => .of_live (.of_eq rfl rfl rfl) (List.Subset.refl _)) .update

theorem perform (fuel : Nat) (names : Session.Names) (command : Session.Command) :
    Advancing (Session.perform fuel names command) :=
  sessional.performAny State.Advances.motion.chains.read fuel names (sessional.needs command)

end Advancing

namespace Session

structure Orderly (session : Session) : Prop where
  shared : session.shared.Orderly
  live : ∀ c ∈ session.contexts, ∀ target ∈ c.liveLiterals,
    target.serial < session.shared.nextTarget

theorem Orderly.state {session : Session} (orderly : session.Orderly) (id : ContextId) :
    State.Orderly ⟨session.shared, session.contexts.getD id default⟩ := by
  refine ⟨orderly.shared, ?_⟩
  rw [List.getD_eq_getElem?_getD]
  cases found : session.contexts[id]? with
  | none => exact fun _ => nofun
  | some c => exact orderly.live c (List.mem_of_getElem? found)

theorem inContext_orderly {α : Type} {session : Session} (id : ContextId) {body : Eval α}
    (advancing : Advancing body) (orderly : session.Orderly) :
    (session.inContext id body).2.Orderly := by
  have advances := advancing ⟨session.shared, session.contexts.getD id default⟩
  have set (s : State) (advances : State.Advances ⟨session.shared, session.contexts.getD id default⟩ s) :
      Orderly { session with shared := s.shared, contexts := session.contexts.set id s.context } := by
    have after := advances.orderly (orderly.state id)
    refine ⟨after.shared, fun c member target live => ?_⟩
    rcases List.mem_or_eq_of_mem_set member with old | rfl
    · exact Nat.lt_of_lt_of_le (orderly.live c old target live) advances.shared.nextTarget
    · exact after.live target live
  unfold inContext
  dsimp only
  split <;> next result =>
    rw [result] at advances
    exact set _ advances

theorem nameScope_orderly {session : Session} (command : Command) (orderly : session.Orderly) :
    (session.nameScope command).Orderly := by
  unfold nameScope
  split
  · split
    · exact orderly
    · exact ⟨orderly.shared.of_eq rfl rfl rfl, orderly.live⟩
  · exact orderly

theorem keep_orderly {session : Session} (register : Option String) (result : Except Halt Finding)
    (orderly : session.Orderly) : (session.keep register result).Orderly := by
  unfold keep
  split
  · split
    · exact ⟨orderly.shared, orderly.live⟩
    · exact orderly
  · exact orderly

theorem step_orderly (fuel : Nat) {session : Session} (step : Step) (orderly : session.Orderly) :
    (session.step fuel step).2.Orderly := by
  have named := nameScope_orderly step.command orderly
  have performed := inContext_orderly step.context
    (Advancing.perform fuel (session.nameScope step.command).names step.command) named
  exact keep_orderly step.register _ performed

theorem after_orderly (fuel : Nat) {session : Session} (steps : List Step)
    (orderly : session.Orderly) : (session.after fuel steps).Orderly := by
  induction steps generalizing session with
  | nil => exact orderly
  | cons first rest ih => exact ih (step_orderly fuel first orderly)

theorem addContexts_orderly {session : Session} (count : Nat) (orderly : session.Orderly) :
    (session.addContexts count).Orderly := by
  refine addContexts_keeps (fun session orderly =>
    ⟨orderly.shared.of_eq rfl rfl rfl, fun c member => ?_⟩) orderly count
  rcases List.mem_append.1 member with old | new
  · exact orderly.live c old
  · rw [List.mem_singleton] at new
    subst new
    exact fun target live => absurd live List.not_mem_nil

/-- Only built-in methods are there at first. -/
theorem start_builtin (config : Config) (backend : Backend) (hooks : List Hook) (firstTarget : Nat)
    (id : MethodId) :
    ¬((Shared.start config backend hooks firstTarget).library.method id).HasBody := by
  let NoBody (shared : Shared) : Prop := ∀ id, ¬(shared.library.method id).HasBody
  have before : NoBody
      { config, backend, nextTarget := firstTarget : Shared }.withCoreClasses :=
    fun id hasBody => hasBody default rfl
  have core := List.foldlRecOn Core.methods Shared.install (motive := NoBody) before
    fun shared none entry _ id => by
      change ¬((shared.library.addMethod _).2.method id).HasBody
      rw [Library.method_addMethod]
      split
      · exact fun hasBody => hasBody entry.builtin rfl
      · exact none id
  exact core id

/-- The built-in methods take the first identities. -/
theorem start_orderly (config : Config) (backend : Backend) (tellsCompiles : Bool)
    (hooks : List Hook) (contexts firstTarget : Nat) :
    (start config backend tellsCompiles hooks contexts firstTarget).Orderly := by
  have noBody := start_builtin config backend hooks firstTarget
  refine addContexts_orderly contexts ⟨.of_builtin (fun id => ?_) noBody, nofun⟩
  have next : (Shared.start config backend hooks firstTarget).nextTarget =
    firstTarget + Core.methods.length := rfl
  have none : (Shared.start config backend hooks firstTarget).closures = #[] := rfl
  rw [next, Shared.closure, none]
  exact Nat.succ_pos _

end Session

end CallEngine
