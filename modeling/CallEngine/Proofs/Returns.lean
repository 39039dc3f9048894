import CallEngine.Proofs.Emissions
/-! A return comes out of an evaluation only where a frame that catches it is still on the stack. -/
namespace CallEngine

def Caught : EvalProperty := fun _ x =>
  ∀ s target value s', x s = .error (.signal (.leave target value)) s' →
    s'.context.stack.isActive target

namespace FrameStack

theorem isActive_withVisibility (stack : FrameStack) (v : Visibility) (target : Target) :
    (stack.withVisibility v).isActive target = stack.isActive target := by
  obtain ⟨frames, depth, limit, depth_eq⟩ := stack
  cases frames <;> rfl

theorem isActive_of_add {stack : FrameStack} {frame : Frame} {target : Target}
    (other : frame.activation ≠ some target) (active : (stack.add frame).isActive target) :
    stack.isActive target := by
  simpa [FrameStack.isActive, FrameStack.add, other] using active

end FrameStack

theorem Kept.isActive {c c' : Context} (kept : Kept c c') (target : Target) :
    c'.stack.isActive target = c.stack.isActive target := by
  obtain ⟨v, stack⟩ := kept.stack
  rw [stack, FrameStack.isActive_withVisibility]

/-- If the signal is a return, there is a frame that catches it. -/
def Signal.HasCatcher (g : Signal) (c : Context) : Prop :=
  ∀ target value, g = .leave target value → c.stack.isActive target

theorem Signal.HasCatcher.fits : Signal.Fits Signal.HasCatcher where
  error _ _ _ _ _ := nofun
  jump _ jumps _ _ same := by
    subst same
    exact jumps.elim
  leave _ active _ _ same := by
    cases same
    exact active
  located _ _ _ _ := nofun
  popScope := id
  leaveLive _ := id

/-- The frame that goes is not the one that the return is for. -/
theorem EmitsIn.withCatcher {α : Type} {frame : Frame} {body : Eval α} (restores : Restores body)
    (holds : EmitsIn Signal.HasCatcher body)
    (catches : ∀ target, frame.activation = some target → Catches target body) :
    EmitsIn Signal.HasCatcher (Eval.withFrame frame body) := by
  rintro s g s' ends target value rfl
  rw [Eval.withFrame_eq] at ends
  cases push : s.context.stack.push frame with
  | error e =>
    rw [push] at ends
    cases ends
  | ok pushed =>
    rw [push] at ends
    obtain rfl := FrameStack.push_eq push
    unfold Eval.ensuring at ends
    dsimp only at ends
    split at ends
    · cases ends
    · next halt t result =>
      cases ends
      have active := holds _ _ t result target value rfl
      have restored := restores (s.pushed (s.context.stack.add frame))
      rw [result] at restored
      rw [restored.toKept.popFrame]
      rw [restored.toKept.isActive] at active
      exact FrameStack.isActive_of_add (fun own => catches target own _ value t result) active

/-- The two go together: which frames are left says which returns can come out. -/
def Unwinds : EvalProperty := fun _ x => Restores x ∧ Caught x

theorem Unwinds.iff_emitsIn {α : Type} (x : Eval α) :
    Restores x ∧ EmitsIn Signal.HasCatcher x ↔ Unwinds x := by
  refine and_congr_right fun _ => ⟨fun emits s target value s' ends => ?_, ?_⟩
  · exact emits s _ s' ends target value rfl
  · rintro caught s g s' ends target value rfl
    exact caught s target value s' ends

namespace Unwinds

theorem of_catches {α : Type} {x : Eval α} (restores : Restores x)
    (catches : ∀ target, Catches target x) : Unwinds x :=
  ⟨restores, fun s target value s' ends => absurd ends (catches target s value s')⟩

theorem compositional : Compositional Unwinds := by
  have r := Restores.compositional
  have fits := Signal.HasCatcher.fits
  have same := EvalProperty.ext (P := fun _ x => Restores x ∧ EmitsIn Signal.HasCatcher x) iff_emitsIn
  refine same ▸ {
    pure a := ⟨r.pure a, fun _ _ _ => nofun⟩
    bind first rest := ⟨r.bind first.1 fun a => (rest a).1, .bind first.2 fun a => (rest a).2⟩
    read blind := ⟨r.read blind, fun _ _ _ => nofun⟩
    exhausted := ⟨r.exhausted, fun _ _ _ => nofun⟩
    raise fresh := ⟨r.raise fresh, .raise fits fresh.backtrace⟩
    jump jumps := ⟨r.jump jumps, .signal fun c => fits.jump c jumps⟩
    claim target value := ⟨r.claim target value, .signal fun _ _ _ => nofun⟩
    leave value := ⟨r.leave value, .returnValue fits value⟩
    poll := ⟨r.poll, .poll fits⟩
    visibility visibility := ⟨r.visibility visibility, .setVisibility visibility⟩
    observe holds := ⟨r.observe holds.1, .silent (.observe _)⟩
    live holds := ⟨r.live holds.1, .live fits holds.2⟩
    handle holds blind handled :=
      ⟨r.handle ⟨holds.runs.1, holds.passes.1⟩ blind fun outcome c => (handled outcome c).left,
        .handle ⟨holds.runs.2, holds.passes.2⟩ fun outcome c => (handled outcome c).right⟩
    fault fault := ⟨r.fault fault, fun _ _ _ => nofun⟩
    update isLocal := ⟨r.update isLocal, fun _ _ _ => nofun⟩
    withFrame holds catches := ⟨r.withFrame holds.1 catches, .withCatcher holds.1 holds.2 catches⟩
    withScope env holds := ⟨r.withScope env holds.1, .withScope fits holds.2⟩
    traced call holds := ⟨r.traced call holds.1, .traced call holds.2⟩
    located holds := ⟨r.located ⟨holds.runs.1, holds.passes.1⟩,
      .located fits ⟨holds.runs.2, holds.passes.2⟩⟩
    promoted id name runs others same :=
      ⟨r.promoted id name (fun m d c => (runs m d c).1) (fun m => (others m).1) same,
        .promoted id name (fun m d c => (runs m d c).2) fun m => (others m).2⟩ }

theorem sessional : Sessional Unwinds where
  toCompositional := compositional
  monitor f := .of_catches (Restores.sessional.monitor f) fun _ _ _ _ => nofun

theorem perform (fuel : Nat) (names : Session.Names) (command : Session.Command) :
    Unwinds (Session.perform fuel names command) :=
  sessional.performAny (fun _ => .of_catches (.read _) fun _ _ _ _ => nofun) fuel names
    (sessional.needs command)

end Unwinds

/-- No frame catches returns. -/
def Context.Idle (c : Context) : Prop := ∀ target, c.stack.isActive target = false

def NeverLeaves {α : Type} (x : Eval α) (s : State) : Prop :=
  ∀ target value s', x s ≠ .error (.signal (.leave target value)) s'

/-- The error of a return that has nowhere to go, wherever it was seen last. -/
def EvalError.IsFailedReturn (e : EvalError) : Prop :=
  ∃ value backtrace, e = { EvalError.unexpectedReturn value with backtrace }

theorem Kept.idle {c c' : Context} (kept : Kept c c') (idle : c.Idle) : c'.Idle :=
  fun target => (kept.isActive target).trans (idle target)

/-- A return that comes out is aimed at something that was running already. -/
theorem Unwinds.wasActive {α : Type} {x : Eval α} {s s' : State} {target : Target} {value : Value}
    (unwinds : Unwinds x) (ends : x s = .error (.signal (.leave target value)) s') :
    s.context.stack.isActive target := by
  have active := unwinds.2 s target value s' ends
  have restored := unwinds.1 s
  rw [ends] at restored
  exact restored.toKept.isActive target ▸ active

theorem Unwinds.neverLeaves {α : Type} {x : Eval α} {s : State} (unwinds : Unwinds x)
    (idle : s.context.Idle) : NeverLeaves x s := by
  intro target value s' ends
  have active := unwinds.wasActive ends
  rw [idle target] at active
  cases active

/-- Of a body that ends with no return, only its own errors are those of failed returns. -/
theorem Engine.surfaced_failedReturn {body : Eval Value} {s s' : State} {e : EvalError}
    (never : NeverLeaves body s) (ends : surfaced body s = .error (.signal (.error e)) s')
    (failed : e.IsFailedReturn) : body s = .error (.signal (.error e)) s' := by
  obtain ⟨value, backtrace, rfl⟩ := failed
  simp only [surfaced, Bind.bind, EStateM.bind, Eval.observe] at ends
  cases result : body s with
  | ok value t =>
    rw [result] at ends
    cases ends
  | error halt t =>
    rw [result] at ends
    cases halt with
    | signal g =>
      cases g with
      | error e =>
        cases ends
        rfl
      | leave target value => exact absurd result (never target value t)
      | stop | next | redo | retry => cases ends
    | fault | exhausted => cases ends

namespace Session

theorem context_idle {session : Session} (idle : ∀ c ∈ session.contexts, c.Idle) (id : ContextId) :
    (session.contexts.getD id default).Idle := by
  rw [List.getD_eq_getElem?_getD]
  cases found : session.contexts[id]? with
  | none => exact fun _ => rfl
  | some c => exact idle c (List.mem_of_getElem? found)

/-- Only a return is answered as one. -/
theorem answerOf_leave {session : Session} {context : Context} {result : Except Halt Finding}
    {aim : Aim} {value : View}
    (answered : session.answerOf context result = .ending (.leave aim value)) :
    ∃ target given, result = .error (.signal (.leave target given)) := by
  cases result with
  | ok finding => cases finding <;> cases answered
  | error halt =>
    cases halt with
    | signal g =>
      cases g with
      | leave target given => exact ⟨target, given, rfl⟩
      | error | stop | next | redo | retry => cases answered
    | fault | exhausted => cases answered

theorem step_neverLeaves (fuel : Nat) (session : Session) (step : Step)
    (idle : (session.contexts.getD step.context default).Idle) (aim : Aim) (value : View) :
    (session.step fuel step).1.answer ≠ .ending (.leave aim value) := by
  intro answered
  obtain ⟨target, given, result⟩ := answerOf_leave answered
  rw [← nameScope_contexts session step.command] at idle
  have unwinds := Unwinds.perform fuel (session.nameScope step.command).names step.command
  have never := unwinds.neverLeaves (s := ⟨(session.nameScope step.command).shared, _⟩) idle
  split at result
  · cases result
  · next halt s ends =>
    cases result
    exact never target given s ends

end Session

open Engine in
/-- A return comes out only under a frame that catches it, so it never comes out of a context with
nothing but its root frame. A return that fails does so at once. -/
theorem returns_have_catchers (fuel : Nat) :
    (∀ node, Caught (evalNode fuel node)) ∧
    (∀ receiver name args block type, Caught (dispatch fuel receiver name args block type)) ∧
    (∀ method call, Caught (invoke fuel method call)) ∧
    (∀ closure args, Caught (callClosure fuel closure args)) ∧
    (∀ closure delivery, Caught (yield fuel closure delivery)) ∧
    (∀ s : State, s.context.Idle →
      (∀ node, NeverLeaves (evalNode fuel node) s) ∧
      (∀ receiver name args block type,
        NeverLeaves (dispatch fuel receiver name args block type) s) ∧
      (∀ method call, NeverLeaves (invoke fuel method call) s) ∧
      (∀ closure args, NeverLeaves (callClosure fuel closure args) s) ∧
      (∀ closure delivery, NeverLeaves (yield fuel closure delivery) s) ∧
      (∀ scope body, NeverLeaves (toplevel fuel scope body) s ∧
        ∀ e s', runToplevel fuel scope body s = .error (.signal (.error e)) s' → e.IsFailedReturn →
          toplevel fuel scope body s = .error (.signal (.error e)) s') ∧
      ∀ receiver name args,
        NeverLeaves (Eval.callMethod (Eval.answer fuel) receiver name args none .normal) s ∧
        ∀ e s', send fuel receiver name args s = .error (.signal (.error e)) s' → e.IsFailedReturn →
          Eval.callMethod (Eval.answer fuel) receiver name args none .normal s =
            .error (.signal (.error e)) s') ∧
    (∀ value s e s', Eval.returnValue value s = .error (.signal (.error e)) s' →
      e = .unexpectedReturn value ∧ e.kind.isRescuable ∧ s' = s) ∧
    ∀ config backend tellsCompiles hooks contexts firstTarget steps step aim value,
      (((Session.start config backend tellsCompiles hooks contexts firstTarget).after fuel
        steps).step fuel step).1.answer ≠ .ending (.leave aim value) := by
  have h := Unwinds.compositional
  have calls (receiver : Value) (name : String) (args : List Value) :=
    h.control.callMethod (h.answer fuel) receiver name args none .normal
  refine ⟨fun node => (h.evalNode fuel node).2, fun _ _ _ _ _ => (h.dispatch fuel _ _ _ _ _).2,
    fun _ _ => (h.answer fuel _).2, fun _ _ => (h.callClosure fuel _ _).2,
    fun _ _ => (h.answer fuel _).2, fun s idle => ?_, fun value s e s' ends => ?_, ?_⟩
  · refine ⟨fun node => (h.evalNode fuel node).neverLeaves idle,
      fun _ _ _ _ _ => (h.dispatch fuel _ _ _ _ _).neverLeaves idle,
      fun _ _ => (h.answer fuel _).neverLeaves idle,
      fun _ _ => (h.callClosure fuel _ _).neverLeaves idle,
      fun _ _ => (h.answer fuel _).neverLeaves idle,
      fun scope body => ?_, fun receiver name args => ?_⟩
    · have never := (h.toplevel fuel scope body).neverLeaves idle
      exact ⟨never, fun e s' => surfaced_failedReturn never⟩
    · have never := (calls receiver name args).neverLeaves idle
      exact ⟨never, fun e s' => surfaced_failedReturn never⟩
  · obtain ⟨target, -, result⟩ | result | result := Eval.returnValue_cases value s <;>
      cases result.symm.trans ends
    exact ⟨rfl, rfl, rfl⟩
  · intro config backend tellsCompiles hooks contexts firstTarget steps step aim value
    let fresh := Session.start config backend tellsCompiles hooks contexts firstTarget
    have idle := (fresh.after_kept fuel steps).all Kept.idle
      (Session.addContexts_all (fun _ _ _ => rfl) _ contexts nofun)
    exact Session.step_neverLeaves fuel _ step (Session.context_idle idle _) aim value

open Engine in
/-- The same return inside a method and at top level. -/
theorem returns_have_catchers_twice :
    let node : Node := .doReturn (some (.int 1))
    let root : State := ⟨{}, { id := 0, main := ⟨0, 0⟩, scopes := [[]],
                               stack := .ofRoot { self := .nil } none }⟩
    let inside := root.pushed (root.context.stack.add
      { self := .nil, jumpTarget := some ⟨7⟩, activation := some ⟨7⟩ })
    evalNode 1 node inside = .error (.signal (.leave ⟨7⟩ (.int 1))) inside ∧
    inside.context.stack.isActive ⟨7⟩ ∧
    ∃ s', toplevel 1 0 node root = .error (.signal (.error (.unexpectedReturn (.int 1)))) s' := by
  intro node root inside
  obtain ⟨caught, -, -, -, -, atRoot, -⟩ := returns_have_catchers 1
  have leaves : evalNode 1 node inside = .error (.signal (.leave ⟨7⟩ (.int 1))) inside := rfl
  obtain ⟨-, -, -, -, -, runs, -⟩ := atRoot root fun _ => rfl
  exact ⟨leaves, caught node inside _ _ _ leaves, _, (runs 0 node).2 _ _ rfl ⟨_, _, rfl⟩⟩

end CallEngine
