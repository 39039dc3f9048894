import CallEngine.Proofs.Restore
/-! Which signals come out in which contexts. What an evaluation ends with has passed through what
surrounds it, and the property has to survive each of these steps. -/
namespace CallEngine
open Eval

namespace FrameStack

theorem isActive_of_current {stack : FrameStack} {frame : Frame} {target : Target}
    (current : stack.current = .ok frame) (own : frame.activation = some target) :
    stack.isActive target := by
  obtain ⟨frames, depth, limit, depth_eq⟩ := stack
  cases frames with
  | nil => cases current
  | cons top frames =>
    cases current
    simp [FrameStack.isActive, own]

end FrameStack

/-- A return is let go if what it is aimed at is running. -/
theorem Eval.returnValue_eq {s : State} {frame : Frame} (current : s.context.stack.current = .ok frame)
    (value : Value) : returnValue value s =
      .error (.signal (match frame.jumpTarget with
        | none => .error (.unexpectedReturn value)
        | some target => if s.context.stack.isActive target then .leave target value
          else .error (.unexpectedReturn value))) s := by
  have step : returnValue value s = _ := bind_ok (currentFrame_ok current)
  rw [step]
  cases aimed : frame.jumpTarget with
  | none => rfl
  | some target =>
    simp only [isActive, Bind.bind, EStateM.bind, Eval.read]
    by_cases active : s.context.stack.isActive target
    · simp only [active, or_true, if_true]
      rfl
    · have other : frame.activation ≠ some target :=
        fun own => active (FrameStack.isActive_of_current current own)
      simp only [active, other]
      rfl

/-- A return is refused or let go on the spot, and the state stays as it was. -/
theorem Eval.returnValue_cases (value : Value) (s : State) :
    (∃ target, s.context.stack.isActive target ∧
      returnValue value s = .error (.signal (.leave target value)) s) ∨
    returnValue value s = .error (.signal (.error (.unexpectedReturn value))) s ∨
    returnValue value s = .error (.fault .emptyStack) s := by
  cases current : s.context.stack.current with
  | error fault =>
    refine .inr (.inr ?_)
    simp only [returnValue, currentFrame, Bind.bind, EStateM.bind, Eval.read]
    unfold FrameStack.current at current ⊢
    split at current <;> cases current
    rfl
  | ok frame =>
    rw [returnValue_eq current]
    cases frame.jumpTarget with
    | none => exact .inr (.inl rfl)
    | some target =>
      by_cases active : s.context.stack.isActive target
      · exact .inl ⟨target, active, by simp only [if_pos active]⟩
      · exact .inr (.inl (by simp only [if_neg active]))

/-- Only a break of the literal itself ends there. -/
theorem Outcome.atLiteral_error {own : Target} {outcome : Outcome} {g : Signal}
    (ends : outcome.atLiteral own = .error g) :
    outcome = .error g ∧ ∀ value, g ≠ .stop (some own) value := by
  unfold Outcome.atLiteral at ends
  split at ends
  · split at ends <;> cases ends
    next other => exact ⟨rfl, fun value same => other (by cases same; rfl)⟩
  · next others =>
    subst ends
    exact ⟨rfl, fun value same => others own value (congrArg _ same)⟩

/-- Only an error without a backtrace gets one. -/
theorem Outcome.traced_cases (stack : FrameStack) (outcome : Outcome) :
    (outcome.traced stack = outcome ∧ ∀ e, outcome = .error (.error e) → e.backtrace ≠ []) ∨
      ∃ e, outcome = .error (.error e) ∧ e.backtrace = [] ∧
        outcome.traced stack = .error (.error { e with backtrace := stack.backtrace }) := by
  unfold Outcome.traced
  split
  · next e =>
    split
    · next untraced => exact .inr ⟨e, rfl, by simpa using untraced, rfl⟩
    · next traced =>
      refine .inl ⟨rfl, fun _ same => ?_⟩
      cases same
      simpa using traced
  · next others => exact .inl ⟨rfl, fun e same => absurd same (others e)⟩

/-- Signals that come out fit the context that they come out in. -/
def EmitsIn (Q : Signal → Context → Prop) : EvalProperty := fun _ x =>
  ∀ s g s', x s = .error (.signal g) s' → Q g s'.context

/-- What an evaluation may do to the context that a signal comes out in, frames apart, and the signals
that come out of nothing else. -/
structure Signal.Fits (Q : Signal → Context → Prop) : Prop where
  error (e : EvalError) (c : Context) : e.backtrace = [] → Q (.error e) c
  jump {g : Signal} (c : Context) : g.IsJump → Q g c
  leave {target : Target} {c : Context} (value : Value) :
    c.stack.isActive target → Q (.leave target value) c
  located {e : EvalError} {c : Context} : e.backtrace = [] → Q (.error e) c →
    Q (.error { e with backtrace := c.stack.backtrace }) c
  popScope {g : Signal} {s : State} : Q g s.context → Q g s.popScope.context
  leaveLive {g : Signal} {s : State} {target : Target} : (∀ value, g ≠ .stop (some target) value) →
    Q g s.context → Q g (s.leaveLive target).context

namespace EmitsIn

variable {Q : Signal → Context → Prop} {α β : Type}

theorem silent {x : Eval α} (silent : Emits (fun _ => False) x) : EmitsIn Q x :=
  fun s g s' ends => (silent s g s' ends).elim

theorem bind {x : Eval α} {f : α → Eval β} (first : EmitsIn Q x) (rest : ∀ a, EmitsIn Q (f a)) :
    EmitsIn Q (x >>= f) := by
  intro s g s' ends
  cases result : x s with
  | ok a t =>
    rw [bind_ok result] at ends
    exact rest a t g s' ends
  | error halt t =>
    cases (bind_error result).symm.trans ends
    exact first s g s' result

theorem signal {g : Signal} (allowed : ∀ c, Q g c) : EmitsIn Q (Eval.signal g : Eval α) := by
  rintro s g' s' ⟨⟩
  exact allowed _

/-- A signal that is observed comes out in the context where it would be passed on. -/
theorem observed {x : Eval Outcome} (holds : Observed (EmitsIn Q) x) {s s' : State} {g : Signal}
    (result : x s = .ok (.error g) s') : Q g s'.context :=
  holds.passes s g s' (bind_ok result)

/-- What comes out comes out of the evaluation itself, or of what is done with its outcome. -/
theorem afterwards {x : Eval Outcome} {k : Outcome → Eval α} (holds : Observed (EmitsIn Q) x)
    (rest : ∀ {s outcome t}, x s = .ok outcome t → ∀ g s', k outcome t = .error (.signal g) s' →
      Q g s'.context) : EmitsIn Q (x >>= k) := by
  intro s g s' ends
  cases result : x s with
  | error halt t =>
    cases (bind_error result).symm.trans ends
    exact holds.runs s g s' result
  | ok outcome t => exact rest result g s' ((bind_ok result).symm.trans ends)

theorem handle {γ : Type} {x : Eval Outcome} {view : State → γ} {k : Outcome → γ → Eval Value}
    (holds : Observed (EmitsIn Q) x)
    (handled : ∀ outcome c, Handled (EmitsIn Q) outcome (k outcome c)) :
    EmitsIn Q (x >>= fun outcome => Eval.read view >>= k outcome) := by
  refine afterwards holds fun {s outcome t} result g s' ended => ?_
  replace ended : k outcome (view t) t = .error (.signal g) s' := ended
  rcases handled outcome (view t) with same | ⟨-, deals⟩
  · rw [same] at ended
    exact holds.passes s g s' ((bind_ok result).trans ended)
  · exact deals t g s' ended

theorem ensuring {body : Eval α} {after : State → State} (holds : EmitsIn Q body)
    (keeps : ∀ g s, Q g s.context → Q g (after s).context) :
    EmitsIn Q (Eval.ensuring body after) := by
  intro s g s' ends
  unfold Eval.ensuring at ends
  split at ends
  · cases ends
  · next halt t result =>
    cases ends
    exact keeps g t (holds s g t result)

/-- An event leaves the context alone. -/
theorem traced {body : Eval α} (call : Invocation) (holds : EmitsIn Q body) :
    EmitsIn Q (Eval.traced call body) := by
  refine bind (fun _ _ _ => nofun) fun isActive => ?_
  split
  · exact bind (fun _ _ _ => nofun) fun event => bind (fun _ _ _ => nofun) fun _ =>
      holds.ensuring fun _ _ => id
  · exact holds

theorem codeToRun (id : MethodId) (name : String) : EmitsIn Q (Eval.codeToRun id name) := by
  refine bind (fun _ _ _ => nofun) fun code => bind (fun _ _ _ => nofun) fun isActive => ?_
  split <;> exact fun _ _ _ => nofun

theorem promoted {run : Method → Definition → Option Code → Eval Value}
    {other : Method → Eval Value} (id : MethodId) (name : String)
    (runs : ∀ m definition code, EmitsIn Q (run m definition code))
    (others : ∀ m, EmitsIn Q (other m)) :
    EmitsIn Q (Eval.read (fun s => (s.shared.library.method id).plain) >>= fun m =>
      match m.body with
      | .interpreted definition _ => Eval.codeToRun id name >>= run m definition
      | _ => other m) := by
  refine bind (fun _ _ _ => nofun) fun m => ?_
  split
  · exact (codeToRun id name).bind (runs m _)
  · exact others m

theorem setVisibility (visibility : Visibility) : EmitsIn Q (Eval.setVisibility visibility) :=
  bind (fun _ _ _ => nofun) fun result =>
    bind (by cases result <;> exact fun _ _ _ => nofun) fun _ _ _ _ => nofun

variable (fits : Signal.Fits Q)
include fits

theorem raise {e : EvalError} (untraced : e.backtrace = []) : EmitsIn Q (Eval.raise e : Eval α) :=
  signal fun c => fits.error e c untraced

theorem poll : EmitsIn Q Eval.poll := by
  refine bind (fun _ _ _ => nofun) fun isPending => ?_
  split
  · exact bind (fun _ _ _ => nofun) fun _ => raise fits rfl
  · exact fun _ _ _ => nofun

theorem returnValue (value : Value) : EmitsIn Q (Eval.returnValue value) := by
  intro s g s' ends
  obtain ⟨target, active, result⟩ | result | result := Eval.returnValue_cases value s <;>
    cases result.symm.trans ends
  · exact fits.leave value active
  · exact fits.error _ _ rfl

theorem located {x : Eval Outcome} (holds : Observed (EmitsIn Q) x) :
    EmitsIn Q (x >>= fun outcome =>
      Eval.read (fun s => outcome.traced s.context.stack) >>= Eval.ofOutcome) := by
  refine afterwards holds fun {s outcome t} result g s' ended => ?_
  replace ended : Eval.ofOutcome (outcome.traced t.context.stack) t = .error (.signal g) s' := ended
  obtain ⟨same, rfl⟩ := ofOutcome_signal ended
  rcases outcome.traced_cases t.context.stack with ⟨kept, -⟩ | ⟨e, rfl, untraced, added⟩
  · exact observed holds (result.trans (by rw [← kept, same]))
  · cases added.symm.trans same
    exact fits.located untraced (observed holds result)

theorem live {id : ClosureId} {body : Eval Value} (holds : EmitsIn Q body) :
    EmitsIn Q (Eval.closure id >>= fun made => Eval.whileLive made.target body >>= fun outcome =>
      Eval.ofOutcome (outcome.atLiteral made.target)) := by
  refine bind (fun _ _ _ => nofun) fun made => ?_
  intro s g s' ends
  simp only [Bind.bind, EStateM.bind, Eval.whileLive_eq] at ends
  cases result : body (s.enterLive made.target) with
  | ok value t =>
    rw [result] at ends
    cases ends
  | error halt t =>
    rw [result] at ends
    cases halt with
    | fault | exhausted => cases ends
    | signal h =>
      obtain ⟨same, rfl⟩ := ofOutcome_signal ends
      obtain ⟨⟨⟩, other⟩ := Outcome.atLiteral_error same
      exact fits.leaveLive other (holds _ g t result)

theorem withScope {env : Env} {body : Eval α} (holds : EmitsIn Q body) :
    EmitsIn Q (Eval.withScope env body) :=
  bind (fun _ _ _ => nofun) fun _ => holds.ensuring fun _ _ => fits.popScope

/-- A frame that does not fit is an error, and one that does goes in the end. -/
theorem withFrame (popFrame : ∀ g (s : State), Q g s.context → Q g s.popFrame.context)
    {frame : Frame} {body : Eval α} (holds : EmitsIn Q body) :
    EmitsIn Q (Eval.withFrame frame body) := by
  intro s g s' ends
  rw [Eval.withFrame_eq] at ends
  cases push : s.context.stack.push frame with
  | error refused =>
    rw [push] at ends
    cases ends
    obtain ⟨limit, -, -, rfl⟩ := FrameStack.push_error push
    exact fits.error _ _ rfl
  | ok pushed =>
    rw [push] at ends
    exact holds.ensuring popFrame _ g s' ends

theorem bracketed (popFrame : ∀ g (s : State), Q g s.context → Q g s.popFrame.context) :
    Bracketed (EmitsIn Q) where
  pure _ _ _ _ := nofun
  bind := bind
  read _ _ _ _ := nofun
  exhausted _ _ _ := nofun
  raise fresh := raise fits fresh.backtrace
  jump jumps := signal fun c => fits.jump c jumps
  leave := returnValue fits
  poll := poll fits
  visibility := setVisibility
  observe _ := silent (.observe _)
  live := live fits
  handle holds _ := handle holds
  fault _ _ _ _ := nofun
  update _ _ _ _ := nofun
  withFrame holds _ := withFrame fits popFrame holds
  withScope _ := withScope fits
  traced := traced
  located := located fits
  promoted id name runs others _ := promoted id name runs others

end EmitsIn

end CallEngine
