import CallEngine.Proofs.Restore
/-! Postconditions: relations between the state that an evaluation begins in, the way it ends and the
state that it leaves behind. The evaluator meets those that its updates and its halts meet and that
follow on each other. -/
namespace CallEngine
open Eval

/-- The state that a result leaves behind. -/
def finalState {α : Type} : EStateM.Result Halt State α → State
  | .ok _ s | .error _ s => s

/-- Why there is no value. -/
def halted {α : Type} : EStateM.Result Halt State α → Option Halt
  | .ok .. => none
  | .error halt _ => some halt

/-- An error of such a kind comes out. -/
def Fails (K : ErrorKind → Prop) : Option Halt → Prop
  | some (.signal (.error e)) => K e.kind
  | _ => False

theorem not_fails {K : ErrorKind → Prop} (none : ∀ kind, ¬K kind) (halt : Option Halt) :
    ¬Fails K halt := by
  unfold Fails
  split
  · exact none _
  · exact id

/-- Handlers do not replace errors that cannot be rescued. -/
theorem Outcome.IsOpen.not_fails {K : ErrorKind → Prop} {g : Signal}
    (isOpen : Outcome.IsOpen (.error g)) (unrescuable : ∀ kind, K kind → kind.isRescuable = false) :
    ¬Fails K (some (.signal g)) := by
  intro fails
  cases g with
  | error e =>
    have rescuable : e.kind.isRescuable = true := isOpen
    rw [unrescuable e.kind fails] at rescuable
    cases rescuable
  | _ => exact fails

/-- A relation between the state before, the halt, if there is one, and the state after. -/
abbrev Post := State → Option Halt → State → Prop

def Meets (Q : Post) : EvalProperty := fun _ x => ∀ s, Q s (halted (x s)) (finalState (x s))

/-- Neither a request to stop nor the end of the bound. -/
def Halt.IsOrdinary : Halt → Prop
  | .signal (.error e) => e.kind ≠ .interrupted
  | .exhausted => False
  | _ => True

theorem Signal.IsJump.isOrdinary {g : Signal} (jumps : g.IsJump) :
    (Halt.signal g).IsOrdinary := by
  cases g with
  | error => exact jumps.elim
  | _ => trivial

/-- Updates that bodies make without a poll, frames and events apart. -/
structure Motion (R : State → State → Prop) : Prop where
  refl (s : State) : R s s
  trans {s t u : State} : R s t → R t u → R s u
  visibility (s : State) (visibility : Visibility) :
    R s (s.pushed (s.context.stack.withVisibility visibility))
  scopes (s : State) (scopes : List Env) : R s { s with context.scopes := scopes }
  enterLive (s : State) (id : ClosureId) : R s (s.enterLive (s.shared.closure id).target)
  leaveLive (s : State) (target : Target) : R s (s.leaveLive target)
  quiet {α : Type} {f : State → α × State} : Quiet f → ∀ s, R s (f s).2
  memory {memory : Memory} (s : State) : s.shared.memory.Evolves memory →
    R s { s with shared.memory := memory }
  newClosure (s : State) (body : ClosureBody) (binding : Binding) (kind : ClosureKind) :
    R s { s with shared := (s.shared.addClosure body binding kind).2 }
  newMethod (s : State) (owner : ClassId) (visibility : Visibility) (definition : Definition) :
    R s { s with shared := (s.shared.addMethod fun target =>
      ⟨owner, visibility, .frameAndScope, target, .interpreted definition {}⟩).2 }

/-- A weaker relation, if it is transitive too. -/
theorem Motion.weaken {R R' : State → State → Prop} (motion : Motion R)
    (weaker : ∀ {s t}, R s t → R' s t) (trans : ∀ {s t u}, R' s t → R' t u → R' s u) :
    Motion R' where
  refl s := weaker (motion.refl s)
  trans := trans
  visibility s visibility := weaker (motion.visibility s visibility)
  scopes s scopes := weaker (motion.scopes s scopes)
  enterLive s id := weaker (motion.enterLive s id)
  leaveLive s target := weaker (motion.leaveLive s target)
  quiet quiet s := weaker (motion.quiet quiet s)
  memory s evolves := weaker (motion.memory s evolves)
  newClosure s body binding kind := weaker (motion.newClosure s body binding kind)
  newMethod s owner visibility definition := weaker (motion.newMethod s owner visibility definition)

/-- What comes next, what handles an error and what undoes an update add to a postcondition. -/
structure Post.Chains (Q : Post) : Prop where
  motion : Motion fun s t => Q s none t
  next {s t u : State} {halt : Option Halt} : Q s none t → Q t halt u → Q s halt u
  handle {s t u : State} {g : Signal} {halt : Option Halt} : Outcome.IsOpen (.error g) →
    Q s (some (.signal g)) t → Q t halt u → Q s halt u
  lastly {s t u : State} {halt : Halt} : Q s (some halt) t → Q t none u → Q s (some halt) u
  /-- The backtrace of an error does not matter. -/
  located {s t : State} {e : EvalError} (backtrace : List String) :
    Q s (some (.signal (.error e))) t → Q s (some (.signal (.error { e with backtrace }))) t
  halts (s : State) {halt : Halt} : halt.IsOrdinary → Q s (some halt) s

theorem finalState_ofOutcome (outcome : Outcome) (s : State) :
    finalState (ofOutcome outcome s) = s := by
  cases outcome <;> rfl

theorem halted_ofOutcome (outcome : Outcome) (s t : State) :
    halted (ofOutcome outcome s) = halted (ofOutcome outcome t) := by
  cases outcome <;> rfl

/-- Faults and exhaustion are not observed. -/
theorem Eval.observe_cases (body : Eval Value) (s : State) :
    (∃ outcome t, body s = ofOutcome outcome t ∧ observe body s = .ok outcome t) ∨
      ∃ halt t, (∀ g, halt ≠ .signal g) ∧ body s = .error halt t ∧
        observe body s = .error halt t := by
  unfold observe
  cases body s with
  | ok value t => exact .inl ⟨.ok value, t, rfl, rfl⟩
  | error halt t =>
    cases halt with
    | signal g => exact .inl ⟨.error g, t, rfl, rfl⟩
    | fault fault => exact .inr ⟨.fault fault, t, nofun, rfl, rfl⟩
    | exhausted => exact .inr ⟨.exhausted, t, nofun, rfl, rfl⟩

namespace Post.Chains

variable {Q : Post} (chains : Q.Chains)
include chains

theorem bind {α β : Type} {x : Eval α} {f : α → Eval β} (first : Meets Q x)
    (rest : ∀ a, Meets Q (f a)) : Meets Q (x >>= f) := by
  intro s
  have before := first s
  cases result : x s with
  | ok a t =>
    rw [result] at before
    rw [bind_ok result]
    exact chains.next before (rest a t)
  | error halt t =>
    rw [result] at before
    rw [bind_error result]
    exact before

omit chains in
theorem modifyGet {α : Type} {f : State → α × State} (meets : ∀ s : State, Q s none (f s).2) :
    Meets Q (modifyGet f) := meets

theorem pure {α : Type} (a : α) : Meets Q (Pure.pure a : Eval α) := chains.motion.refl

theorem read {α : Type} (view : State → α) : Meets Q (Eval.read view) := chains.motion.refl

theorem halt {α : Type} {halt : Halt} (ordinary : halt.IsOrdinary) :
    Meets Q (throw halt : Eval α) :=
  fun s => chains.halts s ordinary

theorem orFault {α : Type} (result : Except Fault α) : Meets Q (Eval.orFault result) := by
  cases result with
  | ok a => exact chains.pure a
  | error fault => exact chains.halt trivial

theorem returnValue (value : Value) : Meets Q (Eval.returnValue value) := by
  refine chains.bind (chains.bind (chains.read _) chains.orFault) fun frame => ?_
  split
  · exact chains.halt nofun
  · refine chains.bind (chains.read _) fun isActive => ?_
    split
    · exact chains.halt trivial
    · exact chains.halt nofun

theorem setVisibility (visibility : Visibility) : Meets Q (Eval.setVisibility visibility) := by
  intro s
  simp only [Eval.setVisibility, Bind.bind, EStateM.bind, Eval.read]
  cases set : s.context.stack.setVisibility visibility with
  | error fault => exact chains.halts s trivial
  | ok changed =>
    obtain rfl := FrameStack.setVisibility_eq set
    exact chains.motion.visibility s visibility

/-- What a handler does with an outcome. -/
theorem handled {outcome : Outcome} {x : Eval Value} (handled : Handled (Meets Q) outcome x)
    {s t : State} (ends : Q s (halted (ofOutcome outcome t)) t) :
    Q s (halted (x t)) (finalState (x t)) := by
  rcases handled with rfl | ⟨isOpen, holds⟩
  · rwa [finalState_ofOutcome]
  · cases outcome with
    | ok value => exact chains.next ends (holds t)
    | error g => exact chains.handle isOpen ends (holds t)

omit chains in
/-- The outcome of a body, if there is one. -/
theorem observing {body : Eval Value} (holds : Meets Q body) {k : Outcome → Eval Value} {s : State}
    (rest : ∀ outcome t, Q s (halted (ofOutcome outcome t)) t →
      Q s (halted (k outcome t)) (finalState (k outcome t))) :
    Q s (halted ((Eval.observe body >>= k) s)) (finalState ((Eval.observe body >>= k) s)) := by
  have ends := holds s
  obtain ⟨outcome, t, result, observed⟩ | ⟨halt, t, notSignal, result, observed⟩ :=
    observe_cases body s
  · rw [bind_ok observed]
    rw [result, finalState_ofOutcome] at ends
    exact rest outcome t ends
  · rw [bind_error observed]
    rwa [result] at ends

theorem attend {γ : Type} {body : Eval Value} {view : State → γ} {k : Outcome → γ → Eval Value}
    (holds : Meets Q body) (deals : ∀ outcome c, Handled (Meets Q) outcome (k outcome c)) :
    Meets Q (Eval.observe body >>= fun outcome => Eval.read view >>= k outcome) :=
  fun _ => observing holds fun outcome t => chains.handled (deals outcome (view t))

/-- The end of a body with another update after it. -/
theorem undo {s t u : State} {halt : Option Halt} (ends : Q s halt t) (undoes : Q t none u) :
    Q s halt u := by
  cases halt with
  | none => exact chains.next ends undoes
  | some halt => exact chains.lastly ends undoes

theorem live {id : ClosureId} {body : Eval Value} (holds : Meets Q body) :
    Meets Q (Eval.closure id >>= fun made => Eval.whileLive made.target body >>= fun outcome =>
      Eval.ofOutcome (outcome.atLiteral made.target)) := by
  intro s
  let target := (s.shared.closure id).target
  change Q s (halted ((Eval.whileLive target body >>= fun outcome => _) s))
    (finalState ((Eval.whileLive target body >>= fun outcome => _) s))
  simp only [Eval.whileLive, bind_assoc, pure_bind]
  refine chains.next (chains.motion.enterLive s id) (observing holds fun outcome t ends => ?_)
  have deals : Handled (Meets Q) outcome (ofOutcome (outcome.atLiteral target)) :=
    .atLiteral chains.pure target outcome
  refine chains.handled deals (t := t.leaveLive target) ?_
  rw [halted_ofOutcome outcome _ t]
  exact chains.undo ends (chains.motion.leaveLive t target)

theorem boundary {body : Eval Value} (target : Target) (holds : Meets Q body) :
    Meets Q (Eval.observe body >>= fun outcome =>
      Eval.read (fun s => (outcome.atMethod target).traced s.context.stack) >>= ofOutcome) := by
  refine fun s => observing holds fun outcome t ends => ?_
  have deals : Handled (Meets Q) outcome (ofOutcome (outcome.atMethod target)) :=
    .atMethod chains.pure (fun fresh => chains.halt fresh.kind) target outcome
  have ends := chains.handled deals ends
  change Q s (halted (ofOutcome ((outcome.atMethod target).traced t.context.stack) t))
    (finalState (ofOutcome ((outcome.atMethod target).traced t.context.stack) t))
  rw [finalState_ofOutcome] at ends ⊢
  unfold Outcome.traced
  split
  · next e same =>
    rw [same] at ends
    split
    · exact chains.located _ ends
    · exact ends
  · exact ends

theorem ensuring {α : Type} {body : Eval α} {after : State → State} {s t : State}
    (ends : Q s (halted (body t)) (finalState (body t))) (undoes : ∀ u, Q u none (after u)) :
    Q s (halted (Eval.ensuring body after t)) (finalState (Eval.ensuring body after t)) := by
  unfold Eval.ensuring
  cases result : body t <;> rw [result] at ends <;> exact chains.undo ends (undoes _)

theorem withScope {α : Type} {env : Env} {body : Eval α} (holds : Meets Q body) :
    Meets Q (Eval.withScope env body) :=
  chains.bind (modifyGet fun s => chains.motion.scopes s _) fun _ s =>
    chains.ensuring (holds s) fun t => chains.motion.scopes t _

/-- Where events may be fired like any other update. -/
theorem traced (fire : ∀ s event, Q s none (s.fire event)) {α : Type} {body : Eval α}
    (call : Invocation) (holds : Meets Q body) : Meets Q (Eval.traced call body) := by
  refine chains.bind (chains.read _) fun isActive => ?_
  split
  · exact chains.bind (chains.read _) fun event =>
      chains.bind (modifyGet fun s => fire s event) fun _ s =>
        chains.ensuring (holds s) fun t => fire t _
  · exact holds

theorem codeToRun (promote : ∀ s id name, Q s none (s.promote id name).2) (id : MethodId)
    (name : String) : Meets Q (Eval.codeToRun id name) := by
  refine chains.bind (modifyGet fun s => promote s id name) fun code =>
    chains.bind (chains.read _) fun isActive => ?_
  split <;> exact chains.pure _

/-- Where a frame may be pushed and dropped like any other update. -/
theorem withFrame (stack : ∀ s stack, Q s none (s.pushed stack)) {α : Type} {frame : Frame}
    {body : Eval α} (holds : Meets Q body) : Meets Q (Eval.withFrame frame body) := by
  intro s
  rw [Eval.withFrame_eq]
  cases push : s.context.stack.push frame with
  | error e =>
    obtain ⟨limit, -, -, rfl⟩ := FrameStack.push_error push
    exact chains.halts s nofun
  | ok pushed =>
    have pops (t : State) : Q t none t.popFrame := stack t _
    exact chains.ensuring (chains.next (stack s pushed) (holds _)) pops

theorem poll (settle : ∀ s : State, s.shared.monitor.isPending s.context.id →
      Q s (some (.signal (.error .interrupted)))
        { s with shared.monitor := s.shared.monitor.settle s.context.id }) :
    Meets Q Eval.poll := by
  intro s
  simp only [Eval.poll, Bind.bind, EStateM.bind, Eval.read]
  cases pending : s.shared.monitor.isPending s.context.id with
  | false => exact chains.motion.refl s
  | true => exact settle s pending

theorem framing {resumes : Prop} (spent : resumes → ∀ s, Q s (some .exhausted) s)
    (polled : ∀ {α : Type} {rest : Eval α}, (resumes → Meets Q rest) →
      Meets Q (Eval.poll >>= fun _ => rest))
    (withFrame : ∀ {α : Type} {frame : Frame} {body : Eval α}, Meets Q body →
      Meets Q (Eval.withFrame frame body))
    (traced : ∀ {α : Type} {body : Eval α} (call : Invocation), Meets Q body →
      Meets Q (Eval.traced call body)) : Framing (Meets Q) resumes where
  pure := chains.pure
  bind := chains.bind
  read _ := chains.read _
  raise fresh := chains.halt fresh.kind
  visibility := chains.setVisibility
  live := chains.live
  spent := spent
  polled := polled
  attend holds _ := chains.attend holds
  jump jumps := chains.halt jumps.isOrdinary
  leave := chains.returnValue
  fault _ := chains.halt trivial
  quiet quiet := modifyGet (chains.motion.quiet quiet)
  memory evolves := modifyGet fun s => chains.motion.memory s (evolves s.shared.memory)
  newClosure body binding kind := modifyGet fun s => chains.motion.newClosure s body binding kind
  newMethod owner visibility definition :=
    modifyGet fun s => chains.motion.newMethod s owner visibility definition
  withFrame holds _ := withFrame holds
  withScope _ holds := chains.withScope holds
  traced := traced
  boundary := chains.boundary

/-- Where calls may be counted, too. -/
theorem composing {resumes : Prop} (framing : Framing (Meets Q) resumes)
    (promote : ∀ s id name, Q s none (s.promote id name).2) : Composing (Meets Q) resumes where
  toFraming := framing
  promoted id name runs others _ := chains.bind (chains.read _) fun m => by
    split
    · exact chains.bind (chains.codeToRun promote id name) fun code => runs _ _ _
    · exact others _
  claim _ _ := chains.halt trivial

end Post.Chains

/-- However the evaluation ends, the state after is related to the one before. -/
def Moves (R : State → State → Prop) : EvalProperty := Meets fun s _ t => R s t

theorem Motion.chains {R : State → State → Prop} (motion : Motion R) :
    Post.Chains fun s _ t => R s t where
  motion := motion
  next := motion.trans
  handle _ := motion.trans
  lastly := motion.trans
  located _ := id
  halts s _ _ := motion.refl s

/-- Also changes of the frames, single events, and polls that notice a request. -/
structure LooseMotion (R : State → State → Prop) : Prop extends Motion R where
  stack (s : State) (stack : FrameStack) : R s (s.pushed stack)
  fire (s : State) (event : Event) : R s (s.fire event)
  settle (s : State) : R s { s with shared.monitor := s.shared.monitor.settle s.context.id }
  visibility s _ := stack s _

theorem LooseMotion.poll {R : State → State → Prop} (motion : LooseMotion R) :
    Moves R Eval.poll :=
  motion.chains.poll fun s _ => motion.settle s

theorem LooseMotion.framing {R : State → State → Prop} (motion : LooseMotion R) :
    Framing (Moves R) True :=
  motion.chains.framing (fun _ => motion.refl)
    (fun rest => motion.chains.bind motion.poll fun _ => rest trivial)
    (motion.chains.withFrame motion.stack) (motion.chains.traced motion.fire)

/-- Also calls that are counted. -/
structure FreeMotion (R : State → State → Prop) : Prop extends LooseMotion R where
  promote (s : State) (id : MethodId) (name : String) : R s (s.promote id name).2

namespace FreeMotion

variable {R : State → State → Prop} (motion : FreeMotion R)
include motion

theorem chains : Post.Chains fun s _ t => R s t := motion.toMotion.chains

theorem halt {α : Type} (halt : Halt) : Moves R (throw halt : Eval α) := motion.refl

theorem ofOutcome (outcome : Outcome) : Moves R (Eval.ofOutcome outcome) := by
  cases outcome <;> exact motion.refl

theorem composing : Composing (Moves R) True :=
  motion.chains.composing motion.framing motion.promote

omit motion in
theorem observe {body : Eval Value} (holds : Moves R body) : Moves R (Eval.observe body) := by
  intro s
  have moves := holds s
  unfold Eval.observe
  split <;> next result =>
    rw [result] at moves
    exact moves

theorem sequential : Sequential (Moves R) where
  toHandling := motion.composing.toHandling
  exhausted := motion.halt _
  poll := motion.poll
  observe := observe
  handle holds _ deals := motion.chains.bind holds.runs fun outcome =>
    motion.chains.bind (motion.chains.read _) fun c => (deals outcome c).holds (motion.ofOutcome outcome)

theorem hosting (newTarget : ∀ s : State, R s { s with shared := s.shared.freshTarget.2 }) :
    Hosting (Moves R) :=
  { motion.composing, motion.sequential with
    newTarget := Post.Chains.modifyGet newTarget }

/-- Also where the monitor is changed from outside. -/
theorem sessional
    (monitor : ∀ (s : State) (monitor : Monitor), R s { s with shared.monitor := monitor })
    (updates : ∀ {α : Type} {f : State → α × State}, Local f → ∀ s, R s (f s).2) :
    Sessional (Moves R) :=
  { motion.composing, motion.sequential with
    monitor := fun _ => Post.Chains.modifyGet fun s => monitor s _
    update := fun isLocal => Post.Chains.modifyGet (updates isLocal)
    located := fun holds => motion.chains.bind holds.runs fun _ =>
      motion.chains.bind (motion.chains.read _) motion.ofOutcome }

end FreeMotion

namespace Session

theorem inContext_shared {α : Type} (session : Session) (id : ContextId) (body : Eval α) :
    (session.inContext id body).2.shared =
      (finalState (body ⟨session.shared, session.contexts.getD id default⟩)).shared := by
  unfold inContext
  dsimp only
  cases body ⟨session.shared, session.contexts.getD id default⟩ <;> rfl

variable {R : Shared → Shared → Prop} (refl : ∀ shared, R shared shared)
  (trans : ∀ {a b c}, R a b → R b c → R a c)
  (memory : ∀ {memory : Memory} (shared : Shared), shared.memory.Evolves memory →
    R shared { shared with memory })
  (fuel : Nat)
include refl trans memory

theorem step_shared (session : Session) {step : Step} (performs : ∀ names,
      Moves (fun s t => R s.shared t.shared) (perform fuel names step.command)) :
    R session.shared (session.step fuel step).2.shared := by
  have named : R session.shared (session.nameScope step.command).shared := by
    unfold nameScope
    split
    · split
      · exact refl _
      · exact memory _ (.addStatic _ _)
    · exact refl _
  have inside : R session.shared ((session.nameScope step.command).inContext step.context
      (perform fuel (session.nameScope step.command).names step.command)).2.shared := by
    rw [inContext_shared]
    let context := (session.nameScope step.command).contexts.getD step.context default
    exact trans named (performs _ ⟨_, context⟩)
  unfold Session.step Session.keep
  dsimp only
  split
  · split <;> exact inside
  · exact inside

/-- What every command does to the engine, a session does. -/
theorem after_shared (session : Session) {steps : List Step}
    (performs : ∀ step ∈ steps, ∀ names,
      Moves (fun s t => R s.shared t.shared) (perform fuel names step.command)) :
    R session.shared (session.after fuel steps).shared := by
  induction steps generalizing session with
  | nil => exact refl _
  | cons first rest ih =>
    have stepped := step_shared refl trans memory fuel session (performs first (.head _))
    exact trans stepped (ih _ fun step member => performs step (.tail _ member))

end Session

end CallEngine
