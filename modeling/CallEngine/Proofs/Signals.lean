import CallEngine.Proofs.Control
/-! Which signals an evaluation can end with. What runs a body without reading its signals ends with
those of the body and with errors of its own. -/
namespace CallEngine

namespace Eval

variable {α β : Type} {x : Eval α} {f : α → Eval β} {s s' : State}

theorem bind_ok {a : α} (result : x s = .ok a s') : (x >>= f) s = f a s' := by
  simp only [Bind.bind, EStateM.bind, result]

theorem bind_error {halt : Halt} (result : x s = .error halt s') :
    (x >>= f) s = .error halt s' := by
  simp only [Bind.bind, EStateM.bind, result]

theorem currentFrame_ok {frame : Frame} (current : s.context.stack.current = .ok frame) :
    currentFrame s = .ok frame s := by
  simp only [currentFrame, Bind.bind, EStateM.bind, Eval.read, current]
  rfl

theorem currentFrame_error {fault : Fault} (none : s.context.stack.current = .error fault) :
    currentFrame s = .error (.fault fault) s := by
  simp only [currentFrame, Bind.bind, EStateM.bind, Eval.read, none]
  rfl

theorem currentEnv_cons {env : Env} {outer : List Env} (scopes : s.context.scopes = env :: outer) :
    currentEnv s = .ok env s := by
  simp only [currentEnv, Bind.bind, EStateM.bind, Eval.read, scopes]
  rfl

theorem currentEnv_nil (scopes : s.context.scopes = []) :
    currentEnv s = .error (.fault .noScope) s := by
  simp only [currentEnv, Bind.bind, EStateM.bind, Eval.read, scopes]
  rfl

theorem observe_signal {body : Eval Value} {g : Signal}
    (ends : body s = .error (.signal g) s') : observe body s = .ok (.error g) s' := by
  simp only [observe, ends]

theorem ofOutcome_signal {outcome : Outcome} {s s' : State} {g : Signal}
    (ends : ofOutcome outcome s = .error (.signal g) s') : outcome = .error g ∧ s = s' := by
  cases outcome with
  | ok value => cases ends
  | error g =>
    cases ends
    exact ⟨rfl, rfl⟩

end Eval

/-- Only signals with the property come out. -/
def Emits (Q : Signal → Prop) : EvalProperty := fun _ x =>
  ∀ s g s', x s = .error (.signal g) s' → Q g

namespace Emits

variable {Q : Signal → Prop} {α β : Type}

/-- What follows may use that the value came out. -/
theorem bindResult {x : Eval α} {f : α → Eval β} (first : Emits Q x)
    (rest : ∀ s a s', x s = .ok a s' → Emits Q (f a)) : Emits Q (x >>= f) := by
  intro s g s' ends
  simp only [Bind.bind, EStateM.bind] at ends
  split at ends
  · next a t result => exact rest s a t result t g s' ends
  · next halt t result =>
    cases ends
    exact first _ _ _ result

theorem bind {x : Eval α} {f : α → Eval β} (first : Emits Q x) (rest : ∀ a, Emits Q (f a)) :
    Emits Q (x >>= f) :=
  first.bindResult fun _ a _ _ => rest a

theorem signal {g : Signal} (allowed : Q g) : Emits Q (Eval.signal g : Eval α) := by
  intro s g' s' ends
  cases ends
  exact allowed

theorem ofOutcome {outcome : Outcome} (allowed : ∀ g, outcome = .error g → Q g) :
    Emits Q (Eval.ofOutcome outcome) := by
  intro s g s' ends
  cases outcome with
  | ok value => cases ends
  | error g =>
    cases ends
    exact allowed g rfl

theorem readOutcome {view : State → Outcome} (allowed : ∀ s g, view s = .error g → Q g) :
    Emits Q (Eval.read view >>= Eval.ofOutcome) :=
  fun s => ofOutcome (allowed s) s

theorem observe (body : Eval Value) : Emits Q (Eval.observe body) := by
  intro s g s' ends
  unfold Eval.observe at ends
  split at ends
  · cases ends
  · cases ends
  · next halt t notSignal result =>
    cases ends
    exact absurd rfl (notSignal g)

/-- What follows an observation deals with signals that would come out if they were passed on. -/
theorem observing {x : Eval Outcome} {k : Outcome → Eval β} (holds : Observed (Emits Q) x)
    (rest : ∀ outcome, (∀ g, outcome = .error g → Q g) → Emits Q (k outcome)) :
    Emits Q (x >>= k) := by
  intro s g s' ends
  simp only [Bind.bind, EStateM.bind] at ends
  split at ends
  · next outcome t result =>
    refine rest outcome (fun g same => holds.passes s g t ?_) t g s' ends
    simp only [Bind.bind, EStateM.bind, result, same]
    rfl
  · next halt t result =>
    cases ends
    exact holds.runs _ _ _ result

theorem observed {body : Eval Value} (holds : Emits Q body) :
    Observed (Emits Q) (Eval.observe body) :=
  ⟨observe body, (observe_ofOutcome body).symm ▸ holds⟩

theorem handle {γ : Type} {x : Eval Outcome} {view : State → γ} {k : Outcome → γ → Eval Value}
    (holds : Observed (Emits Q) x) (handled : ∀ outcome c, Handled (Emits Q) outcome (k outcome c)) :
    Emits Q (x >>= fun outcome => Eval.read view >>= k outcome) :=
  observing holds fun outcome allowed => bind (fun _ _ _ => nofun) fun c =>
    (handled outcome c).holds (ofOutcome allowed)

theorem live {id : ClosureId} {body : Eval Value} (holds : Emits Q body) :
    Emits Q (Eval.closure id >>= fun made => Eval.whileLive made.target body >>= fun outcome =>
      Eval.ofOutcome (outcome.atLiteral made.target)) := by
  refine bind (fun _ _ _ => nofun) fun made => ?_
  simp only [Eval.whileLive, bind_assoc, pure_bind]
  refine bind (fun _ _ _ => nofun) fun _ => observing holds.observed fun outcome allowed => ?_
  exact bind (fun _ _ _ => nofun) fun _ =>
    (Handled.atLiteral (fun _ _ _ _ => nofun) made.target outcome).holds (ofOutcome allowed)

section brackets

theorem ensuring {body : Eval α} (holds : Emits Q body) (after : State → State) :
    Emits Q (Eval.ensuring body after) := by
  intro s g s' ends
  unfold Eval.ensuring at ends
  split at ends
  · cases ends
  · next halt t result =>
    cases ends
    exact holds _ _ _ result

theorem withScope {body : Eval α} (holds : Emits Q body) (env : Env) :
    Emits Q (Eval.withScope env body) :=
  bind (fun _ _ _ => nofun) fun _ => holds.ensuring _

theorem withNewScope {body : Eval α} (holds : Emits Q body) (scope : Option StaticId) :
    Emits Q (Eval.withNewScope scope body) := by
  cases scope with
  | none => exact holds
  | some scope => exact bind (fun _ _ _ => nofun) fun env => holds.withScope env

theorem traced {body : Eval α} (holds : Emits Q body) (call : Invocation) :
    Emits Q (Eval.traced call body) := by
  refine bind (fun _ _ _ => nofun) fun isActive => ?_
  split
  · exact bind (fun _ _ _ => nofun) fun event => bind (fun _ _ _ => nofun) fun _ =>
      holds.ensuring _
  · exact holds

end brackets

section errors

variable (errors : ∀ e, Q (.error e))
include errors

theorem orRaise (result : Except EvalError α) : Emits Q (Eval.orRaise result) := by
  cases result with
  | ok a => exact fun _ _ _ => nofun
  | error e => exact signal (errors e)

theorem poll : Emits Q Eval.poll := by
  refine bind (fun _ _ _ => nofun) fun isPending => ?_
  split
  · exact bind (fun _ _ _ => nofun) fun _ => signal (errors _)
  · exact fun _ _ _ => nofun

theorem redoing (body : Eval Value) (bound : Nat) : Emits Q (Eval.redoing body bound) := by
  induction bound with
  | zero => exact fun _ _ _ => nofun
  | succ bound ih =>
    refine bind (observe body) fun outcome => ?_
    split
    · exact bind (poll errors) fun _ => ih
    · exact fun _ _ _ => nofun

theorem pushFrame (frame : Frame) : Emits Q (Eval.pushFrame frame) :=
  bind (fun _ _ _ => nofun) fun result => bind (orRaise errors result) fun _ _ _ _ => nofun

theorem withFrame {body : Eval α} (holds : Emits Q body) (frame : Frame) :
    Emits Q (Eval.withFrame frame body) :=
  bind (pushFrame errors frame) fun _ => holds.ensuring _

theorem withFrames {body : Eval α} (holds : Emits Q body) (frames : List Frame) :
    Emits Q (Eval.withFrames frames body) := by
  induction frames with
  | nil => exact holds
  | cons frame frames ih => exact withFrame errors ih frame

theorem entering {body : Eval α} (holds : Emits Q body) (config : CallConfig) (call : Invocation) :
    Emits Q (Eval.entering config call body) := by
  have inside := withFrames errors ((holds.traced call).withNewScope
    (if config.pushesScope then call.scope else none)) (config.frames call)
  unfold Eval.entering
  dsimp only
  split
  · exact bind (orRaise errors _) fun _ => inside
  · exact inside

/-- Built-in methods and calls end with errors of their own and with what they ask for. -/
theorem control : Control (Emits Q) where
  pure _ _ _ _ := nofun
  bind := bind
  read _ _ _ _ := nofun
  exhausted _ _ _ := nofun
  raise _ := signal (errors _)
  poll := poll errors
  visibility _ := bind (fun _ _ _ => nofun) fun result => bind
    (by cases result <;> exact fun _ _ _ => nofun) fun _ _ _ _ => nofun
  observe _ := observe _
  live := live
  handle holds _ := handle holds
  frame := bind (fun _ _ _ => nofun) fun result => by cases result <;> exact fun _ _ _ => nofun
  env := bind (fun _ _ _ => nofun) fun scopes => by cases scopes <;> exact fun _ _ _ => nofun
  quiet _ _ _ _ := nofun
  methodClosure _ _ := by
    refine bind (bind (fun _ _ _ => nofun) fun result => ?_) fun frame =>
      bind (bind (fun _ _ _ => nofun) fun scopes => ?_) fun env _ _ _ => nofun
    · cases result <;> exact fun _ _ _ => nofun
    · cases scopes <;> exact fun _ _ _ => nofun

end errors

end Emits

end CallEngine
