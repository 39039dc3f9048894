import CallEngine.Proofs.Postconditions
/-! Two runs of an evaluation from related states. They end alike, unless the first one is lost: it
fails with an error that nothing can rescue, or its monitor lapses into a state that an evaluation
cannot get out of. -/
namespace CallEngine
open Eval

/-- The state with its monitor changed by its context. -/
def State.monitored (s : State) (change : Monitor → ContextId → Monitor) : State :=
  { s with shared.monitor := change s.shared.monitor s.context.id }

/-- Changes of a context that have nothing to do with the bound on its frames. -/
structure Context.Boundless (change : Context → Context) : Prop where
  limit : ∀ c, (change c).stack.limit = c.stack.limit
  relimit : ∀ c limit,
    change { c with stack.limit := limit } = { change c with stack.limit := limit }

/-- What two runs are compared by: related states, and how the first run may be lost. -/
structure Comparison where
  related : State → State → Prop
  loses : ErrorKind → Prop
  lapsed : Monitor → Prop

namespace Comparison

/-- Whatever evaluations do, states stay related, or the first run is lost. -/
structure IsKept (c : Comparison) : Prop where
  unrescuable : ∀ kind, c.loses kind → kind.isRescuable = false
  fire {monitor : Monitor} (event : Event) : c.lapsed monitor → c.lapsed (monitor.fire event)
  settle {monitor : Monitor} (id : ContextId) : c.lapsed monitor → c.lapsed (monitor.settle id)
  view {α : Type} {s t : State} {view : State → α} : c.related s t → Blind view → view s = view t
  update {α : Type} {s t : State} {f : State → α × State} : c.related s t → Boundless f →
    (f s).1 = (f t).1 ∧ c.related (f s).2 (f t).2
  context {s t : State} {change : Context → Context} : c.related s t → Context.Boundless change →
    c.related { s with context := change s.context } { t with context := change t.context }
  monitor {s t : State} : c.related s t → ∀ change : Monitor → ContextId → Monitor,
    c.lapsed (s.monitored change).shared.monitor ∨
      c.related (s.monitored change) (t.monitored change)
  push {s t : State} : c.related s t → ∀ frame,
    (∃ stack stack', s.context.stack.push frame = .ok stack ∧
      t.context.stack.push frame = .ok stack' ∧ c.related (s.pushed stack) (t.pushed stack')) ∨
    ∃ e, s.context.stack.push frame = .error e ∧
      (c.loses e.kind ∨ t.context.stack.push frame = .error e)
  /-- Both calls go on with the tree, or with the same code. -/
  promote {s t : State} {id : MethodId} {definition : Definition} : c.related s t → ∀ name,
    (s.shared.library.method id).plain.body = .interpreted definition {} →
      c.related (s.promote id name).2 (t.promote id name).2 ∧
      ∃ code : Option Code, ∀ run : Option Code → Eval Value,
        (∀ code, definition.body.lower = .ok code → run (some code) = run none) →
          (codeToRun id name >>= run) s = run code (s.promote id name).2 ∧
          (codeToRun id name >>= run) t = run code (t.promote id name).2

/-- The ends of two runs. -/
inductive Ends (c : Comparison) {α : Type} :
    EStateM.Result Halt State α → EStateM.Result Halt State α → Prop
  | ok (a : α) {s t : State} : c.related s t → c.Ends (.ok a s) (.ok a t)
  | error (halt : Halt) {s t : State} : c.related s t → c.Ends (.error halt s) (.error halt t)
  | fails {left right : EStateM.Result Halt State α} : Fails c.loses (halted left) →
    c.Ends left right
  | lapses {left right : EStateM.Result Halt State α} :
    c.lapsed (finalState left).shared.monitor → c.Ends left right

/-- Two runs from related states end alike, and a run that has lapsed stays so. -/
structure Tandem (c : Comparison) ⦃α : Type⦄ (x : Eval α) : Prop where
  stays : Moves (fun s t => c.lapsed s.shared.monitor → c.lapsed t.shared.monitor) x
  runs : ∀ s t, c.related s t → c.Ends (x s) (x t)

theorem Ends.bind {c : Comparison} {α β : Type} {x : Eval α} {f : α → Eval β} {s t : State}
    (ends : c.Ends (x s) (x t)) (rest : ∀ a, c.Tandem (f a)) :
    c.Ends ((x >>= f) s) ((x >>= f) t) := by
  simp only [Bind.bind, EStateM.bind]
  generalize x s = left at ends
  generalize x t = right at ends
  cases ends with
  | ok a related => exact (rest a).runs _ _ related
  | error halt related => exact .error halt related
  | fails fails =>
    cases left with
    | ok => cases fails
    | error => exact .fails fails
  | lapses lapsed =>
    cases left with
    | ok a s => exact .lapses ((rest a).stays s lapsed)
    | error => exact .lapses lapsed

namespace IsKept

variable {c : Comparison} (kept : c.IsKept)
include kept

theorem motion : FreeMotion fun s t => c.lapsed s.shared.monitor → c.lapsed t.shared.monitor where
  refl _ := id
  trans first second := second ∘ first
  stack _ _ := id
  scopes _ _ := id
  enterLive _ _ := id
  leaveLive _ _ := id
  settle _ := kept.settle _
  fire _ := kept.fire
  promote s id name lapsed := (s.promote_monitor id name).symm ▸ lapsed
  quiet quiet s lapsed := (quiet.monitor s).symm ▸ lapsed
  memory _ _ := id
  newClosure _ _ _ _ := id
  newMethod _ _ _ _ := id

theorem pure {α : Type} (a : α) : c.Tandem (Pure.pure a : Eval α) :=
  ⟨kept.motion.chains.pure a, fun _ _ related => .ok a related⟩

theorem bind {α β : Type} {x : Eval α} {f : α → Eval β} (first : c.Tandem x)
    (rest : ∀ a, c.Tandem (f a)) : c.Tandem (x >>= f) :=
  ⟨kept.motion.chains.bind first.stays fun a => (rest a).stays,
    fun s t related => (first.runs s t related).bind rest⟩

theorem read {α : Type} {view : State → α} (blind : Blind view) : c.Tandem (Eval.read view) := by
  refine ⟨kept.motion.chains.read view, fun s t related => ?_⟩
  change c.Ends (.ok (view s) s) (.ok (view t) t)
  rw [kept.view related blind]
  exact .ok _ related

theorem halt {α : Type} (halt : Halt) : c.Tandem (throw halt : Eval α) :=
  ⟨kept.motion.halt halt, fun _ _ related => .error halt related⟩

theorem ofOutcome (outcome : Outcome) : c.Tandem (Eval.ofOutcome outcome) := by
  cases outcome with
  | ok value => exact kept.pure value
  | error g => exact kept.halt _

theorem modifyGet {α : Type} {f : State → α × State} (boundless : Boundless f) :
    c.Tandem (modifyGet f) := by
  refine ⟨fun s lapsed => (boundless.monitor s).symm ▸ lapsed, fun s t related => ?_⟩
  obtain ⟨same, states⟩ := kept.update related boundless
  change c.Ends (.ok (f s).1 (f s).2) (.ok (f t).1 (f t).2)
  rw [same]
  exact .ok _ states

theorem changeMonitor {α : Type} (f : Monitor → ContextId → α × Monitor) {s t : State}
    (related : c.related s t) : c.Ends (Eval.changeMonitor f s) (Eval.changeMonitor f t) := by
  have blind : Blind fun s => (f s.shared.monitor s.context.id).1 := fun _ => rfl
  have same := kept.view related blind
  rcases kept.monitor related fun monitor id => (f monitor id).2 with lapsed | related
  · exact .lapses lapsed
  · change c.Ends (.ok (f s.shared.monitor s.context.id).1 _) (.ok _ _)
    rw [same]
    exact .ok _ related

theorem orFault {α : Type} (result : Except Fault α) : c.Tandem (Eval.orFault result) := by
  cases result with
  | ok a => exact kept.pure a
  | error fault => exact kept.halt _

theorem returnValue (value : Value) : c.Tandem (Eval.returnValue value) := by
  refine kept.bind (kept.bind (kept.read fun _ => rfl) kept.orFault) fun frame => ?_
  split
  · exact kept.halt _
  · refine kept.bind (kept.read fun _ => rfl) fun isActive => ?_
    split <;> exact kept.halt _

theorem poll : c.Tandem Eval.poll := by
  refine kept.bind (kept.read fun _ => rfl) fun isPending => ?_
  split
  · have settles : c.Tandem (Eval.changeMonitor fun monitor id => ((), monitor.settle id)) :=
      ⟨fun _ => kept.settle _, fun _ _ => kept.changeMonitor _⟩
    exact kept.bind settles fun _ => kept.halt _
  · exact kept.pure ()

theorem setVisibility (visibility : Visibility) : c.Tandem (Eval.setVisibility visibility) := by
  refine ⟨kept.motion.chains.setVisibility visibility, fun s t related => ?_⟩
  have blind : Blind (·.context.stack.frames) := fun _ => rfl
  have frames : s.context.stack.frames = t.context.stack.frames := kept.view related blind
  simp only [Eval.setVisibility, Bind.bind, EStateM.bind, Eval.read, FrameStack.setVisibility, frames]
  cases t.context.stack.frames with
  | nil => exact .error _ related
  | cons =>
    let change (c : Context) : Context := { c with stack := c.stack.withVisibility visibility }
    have boundless : Context.Boundless change := ⟨fun _ => rfl, fun _ _ => rfl⟩
    exact .ok () (kept.context related boundless)

omit kept in
/-- What follows on the outcome of a body. -/
theorem observing {body : Eval Value} (holds : c.Tandem body) {k : Outcome → Eval Value}
    {s t : State} (related : c.related s t)
    (alike : ∀ outcome u v, c.related u v → c.Ends (k outcome u) (k outcome v))
    (fails : ∀ e u, c.loses e.kind → Fails c.loses (halted (k (.error (.error e)) u)))
    (lapses : ∀ outcome u, c.lapsed u.shared.monitor →
      c.lapsed (finalState (k outcome u)).shared.monitor) :
    c.Ends ((Eval.observe body >>= k) s) ((Eval.observe body >>= k) t) := by
  have ends := holds.runs s t related
  simp only [Bind.bind, EStateM.bind, Eval.observe]
  generalize body s = left at ends
  generalize body t = right at ends
  cases ends with
  | ok value related => exact alike (.ok value) _ _ related
  | error halt related =>
    cases halt with
    | signal g => exact alike (.error g) _ _ related
    | fault | exhausted => exact .error _ related
  | fails lost =>
    cases left with
    | ok => cases lost
    | error halt u =>
      rcases halt with (e | _) | _ | _
      · exact .fails (fails e u lost)
      all_goals cases lost
  | lapses lapsed =>
    cases left with
    | ok value u => exact .lapses (lapses (.ok value) u lapsed)
    | error halt u =>
      cases halt with
      | signal g => exact .lapses (lapses (.error g) u lapsed)
      | fault | exhausted => exact .lapses lapsed

/-- What a handler makes of an outcome. -/
theorem handled {outcome : Outcome} {x : Eval Value} (handled : Handled c.Tandem outcome x) :
    c.Tandem x :=
  handled.holds (kept.ofOutcome outcome)

/-- No handler replaces an error by which the run is lost. -/
theorem handled_fails {e : EvalError} {x : Eval Value}
    (handled : Handled c.Tandem (.error (.error e)) x) (loses : c.loses e.kind) (u : State) :
    Fails c.loses (halted (x u)) := by
  rcases handled with rfl | ⟨isOpen, -⟩
  · exact loses
  · exact absurd loses (isOpen.not_fails kept.unrescuable)

theorem attend {γ : Type} {body : Eval Value} {view : State → γ} {k : Outcome → γ → Eval Value}
    (holds : c.Tandem body) (blind : Blind view)
    (deals : ∀ outcome c', Handled c.Tandem outcome (k outcome c')) :
    c.Tandem (Eval.observe body >>= fun outcome => Eval.read view >>= k outcome) := by
  have follows (outcome : Outcome) : c.Tandem (Eval.read view >>= k outcome) :=
    kept.bind (kept.read blind) fun seen => kept.handled (deals outcome seen)
  refine ⟨kept.motion.chains.attend holds.stays fun outcome seen =>
    (deals outcome seen).imp_right (.imp_right Tandem.stays), fun s t related => ?_⟩
  exact observing holds related (fun outcome u v => (follows outcome).runs u v)
    (fun e u loses => kept.handled_fails (deals _ _) loses u) fun outcome => (follows outcome).stays

theorem contextChange {change : Context → Context} (boundless : Context.Boundless change) :
    c.Tandem (modify fun s : State => { s with context := change s.context }) :=
  ⟨fun _ => id, fun _ _ related => .ok () (kept.context related boundless)⟩

theorem live {id : ClosureId} {body : Eval Value} (holds : c.Tandem body) :
    c.Tandem (Eval.closure id >>= fun made => Eval.whileLive made.target body >>= fun outcome =>
      Eval.ofOutcome (outcome.atLiteral made.target)) := by
  refine kept.bind (kept.read fun _ => rfl) fun made => ?_
  simp only [Eval.whileLive, bind_assoc, pure_bind]
  let enter (c : Context) : Context :=
    { c with liveLiterals := made.target :: c.liveLiterals }
  let leave (c : Context) : Context := { c with liveLiterals := c.liveLiterals.erase made.target }
  have entered : c.Tandem (modify fun s : State => { s with context := enter s.context }) :=
    kept.contextChange ⟨fun _ => rfl, fun _ _ => rfl⟩
  have left : c.Tandem (modify fun s : State => { s with context := leave s.context }) :=
    kept.contextChange ⟨fun _ => rfl, fun _ _ => rfl⟩
  have follows (outcome : Outcome) := kept.bind left fun _ =>
    kept.ofOutcome (outcome.atLiteral made.target)
  refine kept.bind entered fun _ => ⟨?_, fun s t related => ?_⟩
  · have rest (outcome : Outcome) := (follows outcome).stays
    exact kept.motion.chains.bind (FreeMotion.observe holds.stays) rest
  · exact observing holds related (fun outcome u v => (follows outcome).runs u v)
      (fun _ _ loses => loses) fun outcome => (follows outcome).stays

theorem boundary {body : Eval Value} (target : Target) (holds : c.Tandem body) :
    c.Tandem (Eval.observe body >>= fun outcome =>
      Eval.read (fun s => (outcome.atMethod target).traced s.context.stack) >>=
        Eval.ofOutcome) := by
  have follows (outcome : Outcome) : c.Tandem (Eval.read (fun s =>
      (outcome.atMethod target).traced s.context.stack) >>= Eval.ofOutcome) :=
    kept.bind (kept.read fun _ => rfl) kept.ofOutcome
  refine ⟨kept.motion.chains.boundary target holds.stays, fun s t related => ?_⟩
  refine observing holds related (fun outcome u v => (follows outcome).runs u v)
    (fun e u loses => ?_) fun outcome => (follows outcome).stays
  change Fails c.loses (halted (Eval.ofOutcome (if e.backtrace.isEmpty then _ else _) u))
  split <;> exact loses

omit kept in
/-- The end of a body with another update after it. -/
theorem ensuring {α : Type} {body : Eval α} {after : State → State} {s t : State}
    (ends : c.Ends (body s) (body t))
    (undoes : ∀ u v, c.related u v →
      c.lapsed (after u).shared.monitor ∨ c.related (after u) (after v))
    (stays : ∀ u, c.lapsed u.shared.monitor → c.lapsed (after u).shared.monitor) :
    c.Ends (Eval.ensuring body after s) (Eval.ensuring body after t) := by
  unfold Eval.ensuring
  generalize body s = left at ends
  generalize body t = right at ends
  cases ends with
  | ok a related =>
    rcases undoes _ _ related with lapsed | related
    · exact .lapses lapsed
    · exact .ok a related
  | error halt related =>
    rcases undoes _ _ related with lapsed | related
    · exact .lapses lapsed
    · exact .error halt related
  | fails fails =>
    cases left with
    | ok => cases fails
    | error => exact .fails fails
  | lapses lapsed => cases left <;> exact .lapses (stays _ lapsed)

theorem withFrame {α : Type} {frame : Frame} {body : Eval α} (holds : c.Tandem body) :
    c.Tandem (Eval.withFrame frame body) := by
  refine ⟨kept.motion.chains.withFrame kept.motion.stack holds.stays, fun s t related => ?_⟩
  simp only [Eval.withFrame_eq]
  obtain ⟨stack, stack', push, push', related⟩ | ⟨e, push, lost | push'⟩ := kept.push related frame
  · rw [push, push']
    let pop (c : Context) : Context := { c with stack := c.stack.drop }
    have boundless : Context.Boundless pop := ⟨fun _ => rfl, fun _ _ => rfl⟩
    exact ensuring (holds.runs _ _ related)
      (fun u v related => .inr (kept.context related boundless)) fun _ => id
  · rw [push]
    exact .fails lost
  · rw [push, push']
    exact .error _ related

theorem withScope {α : Type} {env : Env} {body : Eval α} (holds : c.Tandem body) :
    c.Tandem (Eval.withScope env body) := by
  let enter (c : Context) : Context := { c with scopes := env :: c.scopes }
  let leave (c : Context) : Context := { c with scopes := c.scopes.tail }
  have entered : c.Tandem (modify fun s : State => { s with context := enter s.context }) :=
    kept.contextChange ⟨fun _ => rfl, fun _ _ => rfl⟩
  have boundless : Context.Boundless leave := ⟨fun _ => rfl, fun _ _ => rfl⟩
  refine kept.bind entered fun _ => ⟨?_, fun s t related => ?_⟩
  · exact fun s => kept.motion.chains.ensuring (holds.stays s) fun _ => id
  · exact ensuring (holds.runs _ _ related)
      (fun u v related => .inr (kept.context related boundless)) fun _ => id

theorem traced {α : Type} {body : Eval α} (call : Invocation) (holds : c.Tandem body) :
    c.Tandem (Eval.traced call body) := by
  refine kept.bind (kept.read fun _ => rfl) fun isActive => ?_
  split
  · refine kept.bind (kept.read fun _ => rfl) fun event => ?_
    have fires : c.Tandem (Eval.changeMonitor fun monitor _ => ((), monitor.fire event)) :=
      ⟨fun _ => kept.fire event, fun _ _ => kept.changeMonitor _⟩
    refine kept.bind fires fun _ => ⟨?_, fun s t related => ?_⟩
    · exact fun s => kept.motion.chains.ensuring (holds.stays s) fun t => kept.motion.fire t _
    · refine ensuring (holds.runs _ _ related) (fun u v related => ?_) fun u => kept.motion.fire u _
      exact kept.monitor related fun monitor _ => monitor.fire { event with kind := call.exitKind }
  · exact holds

theorem promoted {run : Method → Definition → Option Code → Eval Value}
    {other : Method → Eval Value} (id : MethodId) (name : String)
    (runs : ∀ m definition code, c.Tandem (run m definition code))
    (others : ∀ m, c.Tandem (other m))
    (same : ∀ m (definition : Definition) code, definition.body.lower = .ok code →
      run m definition (some code) = run m definition none) :
    c.Tandem (Eval.read (fun s => (s.shared.library.method id).plain) >>= fun m =>
      match m.body with
      | .interpreted definition _ => Eval.codeToRun id name >>= run m definition
      | _ => other m) := by
  let next (m : Method) : Eval Value := match m.body with
    | .interpreted definition _ => Eval.codeToRun id name >>= run m definition
    | _ => other m
  have stays : Moves (fun s t => c.lapsed s.shared.monitor → c.lapsed t.shared.monitor)
      (Eval.read (fun s => (s.shared.library.method id).plain) >>= next) :=
    kept.motion.composing.promoted id name (fun m d code => (runs m d code).stays)
      (fun m => (others m).stays) same
  refine ⟨stays, fun s t related => ?_⟩
  have method := kept.view related (Blind.method id)
  change c.Ends (next (s.shared.library.method id).plain s)
    (next (t.shared.library.method id).plain t)
  rw [← method]
  generalize own : (s.shared.library.method id).plain = m
  cases body : m.body with
  | interpreted definition promotion =>
    obtain rfl := Method.plain_interpreted (own ▸ body)
    obtain ⟨states, code, goesOn⟩ := kept.promote related name (own ▸ body)
    obtain ⟨left, right⟩ := goesOn (run m definition) (same m definition)
    simp only [next, body, left, right]
    exact (runs m definition code).runs _ _ states
  | compiled | builtin =>
    simp only [next, body]
    exact (others m).runs s t related

theorem composing : Composing c.Tandem True where
  pure := kept.pure
  bind := kept.bind
  read := kept.read
  raise _ := kept.halt _
  visibility := kept.setVisibility
  live := kept.live
  spent _ := kept.halt _
  polled rest := kept.bind kept.poll fun _ => rest trivial
  attend := kept.attend
  jump _ := kept.halt _
  claim _ _ := kept.halt _
  leave := kept.returnValue
  fault _ := kept.halt _
  quiet quiet := kept.modifyGet quiet.toBoundless
  memory {_ f} _ := kept.modifyGet ⟨.memory f, fun _ _ => rfl⟩
  newClosure body binding kind := kept.modifyGet ⟨.addClosure body binding kind, fun _ _ => rfl⟩
  newMethod owner visibility definition :=
    kept.modifyGet ⟨.newMethod owner visibility definition, fun _ _ => rfl⟩
  withFrame holds _ := kept.withFrame holds
  withScope _ := kept.withScope
  traced := kept.traced
  boundary := kept.boundary
  promoted := kept.promoted

section lossless

variable (lossless : ∀ kind, ¬c.loses kind)
include lossless

omit kept in
/-- Where no error loses the first run, outcomes may be dropped. -/
theorem observe {body : Eval Value} (holds : c.Tandem body) : c.Tandem (Eval.observe body) := by
  refine ⟨FreeMotion.observe holds.stays, fun s t related => ?_⟩
  have ends := holds.runs s t related
  unfold Eval.observe
  generalize body s = left at ends
  generalize body t = right at ends
  cases ends with
  | ok value related => exact .ok _ related
  | error halt related => cases halt <;> first | exact .ok _ related | exact .error _ related
  | fails fails => exact absurd fails (not_fails lossless _)
  | lapses lapsed =>
    cases left with
    | ok => exact .lapses lapsed
    | error halt => cases halt <;> exact .lapses lapsed

theorem hosting : Hosting c.Tandem where
  toComposing := kept.composing
  exhausted := kept.halt _
  poll := kept.poll
  observe := observe lossless
  handle holds blind deals := kept.bind holds.runs fun outcome =>
    kept.bind (kept.read blind) fun seen => kept.handled (deals outcome seen)
  newTarget := kept.modifyGet Boundless.newTarget

end lossless

end IsKept

end Comparison

end CallEngine
