import CallEngine.Proofs.ClosureReturns
import CallEngine.Proofs.Postconditions
/-! Exits in tail position. What ends a body turns the signal that is meant for it into the value that
the signal carries, so a body that leaves with its value might as well end with it. -/
namespace CallEngine
open Eval

namespace FrameStack

/-- What holds whatever the visibility of the innermost frame is. -/
def Steady (Q : FrameStack → Prop) : Prop :=
  ∀ {stack : FrameStack} (v : Visibility), Q stack → Q (stack.withVisibility v)

/-- A return under the innermost frame is aimed at that frame. -/
def Runs (target : Target) (stack : FrameStack) : Prop :=
  ∃ frame, stack.current = .ok frame ∧ frame.jumpTarget = some target ∧
    frame.activation = some target

theorem Runs.steady (target : Target) : Steady (Runs target) := by
  rintro ⟨frames, depth, limit, depth_eq⟩ v ⟨frame, current, aim, own⟩
  cases frames with
  | nil => cases current
  | cons top frames =>
    cases current
    exact ⟨{ frame with visibility := v }, rfl, aim, own⟩

end FrameStack

theorem EndsWell.kept {α : Type} {c : Context} {result : EStateM.Result Halt State α}
    (ends : EndsWell c result) : Kept c (finalState result).context := by
  cases result with
  | ok => exact ends.toKept
  | error => exact HaltsWell.kept ends

theorem Restores.steady {α : Type} {x : Eval α} {Q : FrameStack → Prop} (restores : Restores x)
    (steady : FrameStack.Steady Q) {s : State} (holds : Q s.context.stack) :
    Q (finalState (x s)).context.stack := by
  obtain ⟨v, stack⟩ := (restores s).kept.stack
  rw [stack]
  exact steady v holds

namespace Eval

variable {x y : Eval Value} {g : Value → Signal} {s : State}

/-- From this state the one body leaves with the signal where the other ends with the value. -/
def LeavesBy (g : Value → Signal) (x y : Eval Value) (s : State) : Prop :=
  y s = (x >>= fun value => signal (g value)) s

theorem LeavesBy.cases (leaves : LeavesBy g x y s) :
    (∃ value t, x s = .ok value t ∧ observe x s = .ok (.ok value) t ∧
      observe y s = .ok (.error (g value)) t) ∨
    (∃ h t, x s = .error (.signal h) t ∧ observe x s = .ok (.error h) t ∧
      observe y s = .ok (.error h) t) ∨
    ∃ halt t, observe x s = .error halt t ∧ observe y s = .error halt t := by
  unfold LeavesBy at leaves
  cases result : x s with
  | ok value t =>
    rw [bind_ok result] at leaves
    exact .inl ⟨value, t, rfl, by simp only [observe, result], observe_signal leaves⟩
  | error halt t =>
    rw [bind_error result] at leaves
    cases halt with
    | signal h => exact .inr (.inl ⟨h, t, rfl, observe_signal result, observe_signal leaves⟩)
    | fault fault =>
      exact .inr (.inr ⟨.fault fault, t, by simp only [observe, result], by simp only [observe, leaves]⟩)
    | exhausted =>
      exact .inr (.inr ⟨.exhausted, t, by simp only [observe, result], by simp only [observe, leaves]⟩)

/-- While the innermost frame is that of the target, returns leave for the target. -/
theorem LeavesBy.returning {target : Target} (restores : Restores x)
    (runs : s.context.stack.Runs target) :
    LeavesBy (.leave target) x (x >>= returnValue) s := by
  have later := restores.steady (FrameStack.Runs.steady target) runs
  unfold LeavesBy
  cases result : x s with
  | ok value t =>
    rw [bind_ok result, bind_ok result]
    rw [result] at later
    obtain ⟨frame, current, aim, own⟩ := later
    have step : returnValue value t = _ := bind_ok (currentFrame_ok current)
    rw [step, aim]
    change (if frame.activation = some target ∨ _ then _ else _ : Eval Value) t = _
    rw [if_pos (.inl own)]
  | error halt t => rw [bind_error result, bind_error result]

theorem bind_at {α β : Type} {x x' : Eval α} {f : α → Eval β} {s t : State} (same : x s = x' t) :
    (x >>= f) s = (x' >>= f) t := by
  simp only [Bind.bind, EStateM.bind, same]

theorem redoing_again {body : Eval Value} {s t : State} (ends : observe body s = .ok (.error .redo) t)
    (bound : Nat) : redoing body (bound + 1) s = (poll >>= fun _ => redoing body bound) t :=
  bind_ok ends

theorem redoing_done {body : Eval Value} {s t : State} {outcome : Outcome}
    (ends : observe body s = .ok outcome t) (other : outcome ≠ .error .redo) (bound : Nat) :
    redoing body (bound + 1) s = .ok outcome t := by
  rw [redoing, bind_ok ends]
  split
  · exact absurd rfl other
  · rfl

end Eval

/-- The same from every state whose stack has the property. -/
def SameOn (Q : FrameStack → Prop) {α : Type} (x y : Eval α) : Prop :=
  ∀ s : State, Q s.context.stack → x s = y s

namespace SameOn

variable {Q : FrameStack → Prop} {α β : Type} {x y : Eval α}

theorem bind {f h : α → Eval β} (restores : Restores x) (steady : FrameStack.Steady Q)
    (rest : ∀ a, SameOn Q (f a) (h a)) : SameOn Q (x >>= f) (x >>= h) := by
  intro s holds
  have later := restores.steady steady holds
  cases result : x s with
  | ok a t =>
    rw [bind_ok result, bind_ok result]
    rw [result] at later
    exact rest a t later
  | error halt t => rw [bind_error result, bind_error result]

/-- What comes next may use the outcome, but takes the signal for the value that it carries. -/
theorem observing {x y : Eval Value} {g : Value → Signal} {k : Outcome → Eval β}
    (leaves : ∀ s, Q s.context.stack → LeavesBy g x y s)
    (same : ∀ value, k (.error (g value)) = k (.ok value)) :
    SameOn Q (observe y >>= k) (observe x >>= k) := by
  intro s holds
  obtain ⟨value, t, -, ends, ends'⟩ | ⟨h, t, -, ends, ends'⟩ | ⟨halt, t, ends, ends'⟩ :=
    (leaves s holds).cases
  · rw [bind_ok ends, bind_ok ends', same]
  · rw [bind_ok ends, bind_ok ends']
  · rw [bind_error ends, bind_error ends']

/-- By induction on the rounds: a round that ends with redo leaves the stack as it was. -/
theorem redoing {x y : Eval Value} {g : Value → Signal} {k : Outcome → Eval β} (restores : Restores x)
    (steady : FrameStack.Steady Q) (leaves : ∀ s, Q s.context.stack → LeavesBy g x y s)
    (notRedo : ∀ value, g value ≠ .redo)
    (same : ∀ value, k (.error (g value)) = k (.ok value)) (bound : Nat) :
    SameOn Q (Eval.redoing y bound >>= k) (Eval.redoing x bound >>= k) := by
  induction bound with
  | zero => exact fun _ _ => rfl
  | succ bound ih =>
    intro s holds
    have later := restores.steady steady holds
    obtain ⟨value, t, -, ends, ends'⟩ | ⟨h, t, result, ends, ends'⟩ | ⟨halt, t, ends, ends'⟩ :=
      (leaves s holds).cases
    · have other : (Except.error (g value) : Outcome) ≠ .error .redo :=
        fun again => notRedo value (Except.error.inj again)
      rw [bind_ok (redoing_done ends nofun bound), bind_ok (redoing_done ends' other bound), same]
    · by_cases again : h = .redo
      · subst again
        rw [result] at later
        rw [bind_at (redoing_again ends bound), bind_at (redoing_again ends' bound), bind_assoc,
          bind_assoc]
        exact SameOn.bind .poll steady (fun _ => ih) t later
      · have other : (Except.error h : Outcome) ≠ .error .redo :=
          fun same => again (Except.error.inj same)
        rw [bind_ok (redoing_done ends other bound), bind_ok (redoing_done ends' other bound)]
    · exact (bind_error (bind_error ends')).trans (bind_error (bind_error ends)).symm

section brackets

variable (same : SameOn Q x y)
include same

theorem ensuring (after : State → State) : SameOn Q (Eval.ensuring x after) (Eval.ensuring y after) := by
  intro s holds
  simp only [Eval.ensuring, same s holds]

theorem withScope (env : Env) : SameOn Q (Eval.withScope env x) (Eval.withScope env y) :=
  fun s holds => same.ensuring State.popScope { s with context.scopes := env :: s.context.scopes } holds

theorem withNewScope (scope : Option StaticId) :
    SameOn Q (Eval.withNewScope scope x) (Eval.withNewScope scope y) := by
  cases scope with
  | none => exact same
  | some scope =>
    intro s holds
    let allocated := s.shared.memory.allocate scope []
    exact same.withScope allocated.1 { s with shared.memory := allocated.2 } holds

theorem traced (call : Invocation) : SameOn Q (Eval.traced call x) (Eval.traced call y) := by
  intro s holds
  simp only [Eval.traced, Bind.bind, EStateM.bind, Eval.read]
  split
  · exact same.ensuring _ (s.fire (call.entry s)) holds
  · exact same s holds

variable {frame : Frame} (pushed : ∀ stack : FrameStack, Q (stack.add frame))
include pushed

theorem withFrame : Eval.withFrame frame x = Eval.withFrame frame y := by
  funext s
  rw [withFrame_eq, withFrame_eq]
  cases push : s.context.stack.push frame with
  | error e => rfl
  | ok stack =>
    obtain rfl := FrameStack.push_eq push
    exact same.ensuring State.popFrame (s.pushed _) (pushed _)

theorem withFrames {frames : List Frame} (innermost : frames.getLast? = some frame) :
    Eval.withFrames frames x = Eval.withFrames frames y := by
  induction frames with
  | nil => cases innermost
  | cons outer frames ih =>
    rcases frames with _ | ⟨next, rest⟩
    · cases innermost
      exact same.withFrame pushed
    · rw [List.getLast?_cons_cons] at innermost
      rw [Eval.withFrames, ih innermost]
      rfl

theorem entering {config : CallConfig} {call : Invocation}
    (innermost : (config.frames call).getLast? = some frame) :
    Eval.entering config call x = Eval.entering config call y := by
  have inside := ((same.traced call).withNewScope
    (if config.pushesScope then call.scope else none)).withFrames pushed innermost
  unfold Eval.entering
  rw [inside]

end brackets

end SameOn

/-- A loop starts its next round on next as it does on a value. -/
theorem Eval.looping_next (test : Eval Value) {body : Eval Value} (restores : Restores body)
    (bound iterations : Nat) :
    looping test (body >>= fun value => signal (.next value)) bound iterations =
      looping test body bound iterations := by
  induction iterations with
  | zero => rfl
  | succ iterations ih =>
    rw [looping, looping, ih]
    refine congrArg (poll >>= ·) (funext fun _ => congrArg (test >>= ·) (funext fun value => ?_))
    split
    · funext s
      have leaves (s : State) (_ : True) :
          LeavesBy .next body (body >>= fun value => signal (.next value)) s := rfl
      refine SameOn.redoing (Q := fun _ => True) restores (fun _ => id) leaves
        (fun _ => by simp) ?_ bound s trivial
      exact fun _ => rfl
    · rfl

/-- Whatever else is pushed, the body runs under a frame of its own. -/
theorem CallConfig.frames_innermost {config : CallConfig} (pushes : config.pushesFrame)
    (call : Invocation) : ∃ frame, (config.frames call).getLast? = some frame ∧
      frame.jumpTarget = call.target ∧ frame.activation = call.target := by
  unfold CallConfig.frames
  split
  · cases pushes
  · exact ⟨_, rfl, rfl, rfl⟩
  · exact ⟨_, rfl, rfl, rfl⟩

theorem Method.HasBody.invocation_target {m : Method} (hasBody : m.HasBody) (call : Call) :
    (m.invocation call).target = some m.target := by
  obtain ⟨owner, visibility, config, target, body⟩ := m
  cases body with
  | interpreted | compiled => rfl
  | builtin builtin => exact absurd rfl (hasBody builtin)

section

variable {ask : Responder} (asks : ∀ request, Restores (ask request)) (bound : Nat)
include asks

/-- Arguments are bound under the frame of the method, and the frame is still there when the body
ends. -/
theorem Eval.runBody_return {m : Method} (hasBody : m.HasBody) (pushes : m.config.pushesFrame)
    (params : Params Node) (call : Call) {body : Eval Value} (restores : Restores body) :
    runBody bound ask m params call (body >>= returnValue) = runBody bound ask m params call body := by
  have h := Restores.compositional
  obtain ⟨frame, innermost, aim, own⟩ :=
    CallConfig.frames_innermost pushes (m.invocation call)
  rw [hasBody.invocation_target] at aim own
  have binds := h.bindArguments asks bound (fun _ => trivial) params call.args call.block
  rw [runBody_eq, runBody_eq]
  refine SameOn.entering (Q := FrameStack.Runs m.target) ?_
    (fun stack => ⟨frame, rfl, aim, own⟩) innermost
  refine SameOn.observing (g := .leave m.target) (fun s runs => ?_) fun value => ?_
  · have leaves := LeavesBy.returning (binds.bind fun _ => restores) runs
    rwa [bind_assoc] at leaves
  · simp only [Outcome.atMethod, if_true]

/-- The frame of the closure is there before the arguments are bound, and while the body is run
again. -/
theorem Eval.yieldLiteral_exit {Q : FrameStack → Prop} (steady : FrameStack.Steady Q)
    {g : Value → Signal} {closure : Closure} {delivery : Delivery}
    (pushed : ∀ stack : FrameStack, Q (stack.add (closure.frame delivery)))
    (notRedo : ∀ value, g value ≠ .redo)
    (caught : ∀ value, Outcome.atClosure closure.target closure.kind (.error (g value)) = .ok value)
    (literal : Literal StaticId Node) {body leaving : Node}
    (leaves : ∀ s : State, Q s.context.stack →
      LeavesBy g (body.eval bound ask) (leaving.eval bound ask) s) :
    yieldLiteral bound ask closure { literal with body := leaving } delivery =
      yieldLiteral bound ask closure { literal with body } delivery := by
  have h := Restores.compositional
  have restores : Restores (body.eval bound ask) := h.eval asks bound (fun _ => trivial) body
  rw [yieldLiteral_eq, yieldLiteral_eq]
  refine congrArg (enterScope literal.scope closure.binding.env >>= ·) (funext fun env => ?_)
  refine SameOn.withFrame (SameOn.withScope ?_ env) pushed
  have assigns := h.storage.assign env literal.params delivery.value delivery.isPacked
  refine SameOn.bind assigns steady fun _ => ?_
  exact SameOn.redoing restores steady leaves notRedo (fun value => by rw [caught]; rfl) bound

end

/-- The returns of a lambda are aimed at the lambda itself. -/
def Closure.Aimed (closure : Closure) : Prop :=
  closure.kind = .lambda → closure.binding.frame.jumpTarget = some closure.target

def Shared.Aimed (shared : Shared) : Prop := ∀ id, (shared.closure id).Aimed

theorem Shared.Aimed.of_eq {shared later : Shared} (aimed : shared.Aimed)
    (closures : later.closures = shared.closures) : later.Aimed := by
  intro id
  rw [Shared.closure, closures]
  exact aimed id

theorem Shared.Aimed.addClosure {shared : Shared} (aimed : shared.Aimed) (body : ClosureBody)
    (binding : Binding) (kind : ClosureKind) : (shared.addClosure body binding kind).2.Aimed := by
  intro id
  rw [shared.closure_added]
  split
  · rintro (lambda : kind = .lambda)
    simp only [Shared.made, if_pos lambda]
  · exact aimed id

theorem Shared.Aimed.motion : FreeMotion fun s t => s.shared.Aimed → t.shared.Aimed where
  refl _ := id
  trans first second := second ∘ first
  stack _ _ := id
  scopes _ _ := id
  enterLive _ _ := id
  leaveLive _ _ := id
  settle _ := id
  fire _ _ := id
  promote s id name aimed := aimed.of_eq (congrArg (·.shared.closures) (s.promote_plain id name) :)
  quiet quiet s aimed := aimed.of_eq (quiet.closures s)
  memory _ _ := id
  newClosure _ body binding kind aimed := aimed.addClosure body binding kind
  newMethod _ _ _ _ := id

namespace Session

theorem Command.needs_aimed (command : Command) :
    command.Needs (Moves fun s t => s.shared.Aimed → t.shared.Aimed) := by
  cases command with
  | define => exact fun _ _ _ _ => id
  | copyMethod => exact fun _ _ _ => id
  | interrupt | addHook | removeHook => exact fun _ _ => id
  | _ => trivial

theorem after_aimed (fuel : Nat) (session : Session) (steps : List Step)
    (aimed : session.shared.Aimed) : (session.after fuel steps).shared.Aimed := by
  refine after_shared (R := fun before after => before.Aimed → after.Aimed) (fun _ => id)
    (fun first second => second ∘ first) (fun _ _ => id) fuel session ?_ aimed
  intro step _ names
  have hosting := Shared.Aimed.motion.hosting fun _ => id
  exact hosting.performAny Shared.Aimed.motion.chains.read fuel names step.command.needs_aimed

theorem start_aimed (config : Config) (backend : Backend) (tellsCompiles : Bool)
    (hooks : List Hook) (contexts firstTarget : Nat) :
    (start config backend tellsCompiles hooks contexts firstTarget).shared.Aimed := by
  refine addContexts_keeps (P := fun session => session.shared.Aimed) (fun _ aimed => aimed) ?_ contexts
  exact fun id => nofun

end Session

/-- A method, a lambda, a closure of any kind and a loop take the exits that are meant for them at the
end of their bodies for plain values. The returns of every lambda there is are meant for it. -/
theorem tail_exits_redundant (fuel : Nat) :
    (∀ (m : Method) params call, m.HasBody → m.config.pushesFrame →
      let activation := runBody fuel (answer fuel) m params call
      (∀ body : Node, activation (Tree.eval fuel (answer fuel) (.doReturn (some body))) =
        activation (body.eval fuel (answer fuel))) ∧
      ∀ body : Code, activation (Code.exec fuel (answer fuel) (.leave .doReturn body)) =
        activation (body.exec fuel (answer fuel))) ∧
    (∀ (closure : Closure) (literal : Literal StaticId Node) delivery (body : Node),
      let invocation (body : Node) :=
        yieldLiteral fuel (answer fuel) closure { literal with body } delivery
      invocation (.doNext (some body)) = invocation body ∧
      (closure.kind = .lambda → invocation (.doBreak (some body)) = invocation body) ∧
      (closure.kind = .lambda → closure.Aimed →
        invocation (.doReturn (some body)) = invocation body)) ∧
    (∀ test body : Node, Engine.evalNode fuel (.loop test (.doNext (some body))) =
      Engine.evalNode fuel (.loop test body)) ∧
    (∀ test body : Code, Code.exec fuel (answer fuel) (.loop test (.leave .doNext body)) =
      Code.exec fuel (answer fuel) (.loop test body)) ∧
    ∀ config backend tellsCompiles hooks contexts firstTarget steps,
      let fresh := Session.start config backend tellsCompiles hooks contexts firstTarget
      (fresh.after fuel steps).shared.Aimed := by
  have h := Restores.compositional
  have asks (request : Request) : Restores (answer fuel request) := h.answer fuel request
  have enough : fuel = 0 → True := fun _ => trivial
  have evals (body : Node) : Restores (body.eval fuel (answer fuel)) := h.eval asks fuel enough body
  have execs (body : Code) : Restores (body.exec fuel (answer fuel)) := h.exec asks fuel enough body
  refine ⟨fun m params call hasBody pushes => ⟨fun body => ?_, fun body => ?_⟩,
    fun closure literal delivery body => ⟨?_, fun lambda => ?_, fun lambda aimed => ?_⟩,
    fun test body => ?_, fun test body => ?_, ?_⟩
  · exact runBody_return asks fuel hasBody pushes params call (evals body)
  · exact runBody_return asks fuel hasBody pushes params call (execs body)
  · exact yieldLiteral_exit asks fuel (Q := fun _ => True) (fun _ => id) (fun _ => trivial)
      (g := .next) (fun _ => by simp) (fun _ => rfl) literal fun _ _ => rfl
  · refine yieldLiteral_exit asks fuel (Q := fun _ => True) (fun _ => id) (fun _ => trivial)
      (g := .stop none) (fun _ => by simp) (fun value => ?_) literal fun _ _ => rfl
    simp only [Outcome.atClosure, if_pos lambda]
  · have own (stack : FrameStack) : (stack.add (closure.frame delivery)).Runs closure.target := by
      refine ⟨_, rfl, aimed lambda, ?_⟩
      simp only [Closure.frame, if_pos lambda]
    refine yieldLiteral_exit asks fuel (.steady _) own (g := .leave closure.target)
      (fun _ => by simp) (fun value => ?_) literal fun s runs => LeavesBy.returning (evals body) runs
    simp only [Outcome.atClosure, lambda, and_self, if_true]
  · exact looping_next (test.eval fuel (answer fuel)) (evals body) fuel fuel
  · exact looping_next (test.exec fuel (answer fuel)) (execs body) fuel fuel
  · intro config backend tellsCompiles hooks contexts firstTarget steps fresh
    exact Session.after_aimed fuel fresh steps (Session.start_aimed _ _ _ _ _ _)

/-- One body ends with the value of its branch and the other leaves with it, in a method and in a
lambda. -/
theorem tail_exits_redundant_branch :
    let branch : Node := .cond (.bool true) (.int 7) none
    let m : Method := ⟨Core.object, .pub, .frameAndScope, ⟨1⟩, .interpreted ⟨0, {}, branch⟩ {}⟩
    let lambda : Closure :=
      { body := .literal ⟨0, {}, branch⟩, target := ⟨2⟩, kind := .lambda
        binding := { (default : Binding) with frame := { self := .nil, jumpTarget := some ⟨2⟩ } } }
    let s : State :=
      ⟨{ library.methods := #[m], closures := #[lambda] },
        { id := 0, main := ⟨0, 0⟩, scopes := [[]], stack := .ofRoot { self := .nil } none }⟩
    let activation (body : Node) :=
      runBody 2 (answer 2) m {} ⟨.nil, "seven", [], none⟩ (body.eval 2 (answer 2)) s
    let invocation (body : Node) :=
      yieldLiteral 2 (answer 2) lambda { scope := 0, params := {}, body } { value := .nil } s
    (∃ s', activation branch = .ok (.int 7) s' ∧
      activation (.doReturn (some branch)) = .ok (.int 7) s') ∧
    ∃ s', invocation branch = .ok (.int 7) s' ∧
      invocation (.doReturn (some branch)) = .ok (.int 7) s' := by
  intro branch m lambda s activation invocation
  obtain ⟨methods, closures, -⟩ := tail_exits_redundant 2
  have returns := (methods m {} ⟨.nil, "seven", [], none⟩ nofun rfl).1 branch
  have leaves := (closures lambda ⟨0, {}, branch⟩ { value := .nil } branch).2.2 rfl fun _ => rfl
  exact ⟨⟨_, rfl, congrFun returns s⟩, _, rfl, congrFun leaves s⟩

end CallEngine
