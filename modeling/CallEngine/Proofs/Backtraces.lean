import CallEngine.Proofs.Emissions
import CallEngine.Proofs.Tracing
/-! Backtraces. An error gets one at the end of the innermost method that it leaves, from the frames
that are there, and carries it unchanged from then on, while frames only go. -/
namespace CallEngine
open Eval

namespace FrameStack

theorem backtrace_drop (stack : FrameStack) : stack.drop.backtrace <:+ stack.backtrace :=
  (List.tail_suffix stack.frames).filterMap _

theorem backtrace_withVisibility (stack : FrameStack) (v : Visibility) :
    (stack.withVisibility v).backtrace = stack.backtrace := by
  obtain ⟨frames, depth, limit, depth_eq⟩ := stack
  cases frames <;> rfl

end FrameStack

theorem Restores.backtrace {α : Type} {x : Eval α} (restores : Restores x) {s s' : State}
    {halt : Halt} (ends : x s = .error halt s') :
    s'.context.stack.backtrace = s.context.stack.backtrace := by
  have restored := restores s
  rw [ends] at restored
  obtain ⟨v, stack⟩ := restored.kept.stack
  rw [stack, FrameStack.backtrace_withVisibility]

/-- A backtrace that comes out goes through the frames that are left. -/
def Truthful : EvalProperty := fun _ x => ∀ s e s', x s = .error (.signal (.error e)) s' →
  e.backtrace ≠ [] → s'.context.stack.backtrace <:+ e.backtrace

def Signal.IsTruthful (g : Signal) (c : Context) : Prop :=
  ∀ e, g = .error e → e.backtrace ≠ [] → c.stack.backtrace <:+ e.backtrace

theorem Signal.IsTruthful.fits : Signal.Fits Signal.IsTruthful where
  error e c untraced _ same traced := by
    cases same
    exact absurd untraced traced
  jump _ jumps _ same := by
    subst same
    exact jumps.elim
  leave _ _ _ := nofun
  located _ _ _ same _ := by
    cases same
    exact List.suffix_refl _
  popScope := id
  leaveLive _ := id

namespace Truthful

theorem iff_emitsIn {α : Type} (x : Eval α) : EmitsIn Signal.IsTruthful x ↔ Truthful x := by
  constructor
  · exact fun emits s e s' ends traced => emits s _ s' ends e rfl traced
  · rintro truthful s g s' ends e rfl traced
    exact truthful s e s' ends traced

/-- Frames that go take their names from the front, and a backtrace keeps them there. -/
theorem compositional : Compositional Truthful := by
  have popFrame (g : Signal) (s : State) (truthful : g.IsTruthful s.context) :
      g.IsTruthful s.popFrame.context := fun e same traced =>
    s.context.stack.backtrace_drop.trans (truthful e same traced)
  have same := EvalProperty.ext (P := EmitsIn Signal.IsTruthful) iff_emitsIn
  refine same ▸ {
    toBracketed := EmitsIn.bracketed Signal.IsTruthful.fits popFrame
    claim _ _ := EmitsIn.signal fun _ _ => nofun }

end Truthful

/-- Where the body of a call starts, and what is undone however it ends. -/
structure Entered (config : CallConfig) (call : Invocation) (s t : State) (leave : State → State) :
    Prop where
  runs : ∀ {α : Type} (body : Eval α), entering config call body s = ensuring body leave t
  frames : t.context.stack.frames = (config.frames call).reverse ++ s.context.stack.frames

namespace Eval

variable {α : Type} {s t : State}

theorem ensuring_error {body : Eval α} {after : State → State} {halt : Halt} {u : State}
    (ends : ensuring body after s = .error halt u) :
    ∃ t, body s = .error halt t ∧ after t = u := by
  unfold ensuring at ends
  split at ends <;> cases ends
  exact ⟨_, ‹_›, rfl⟩

theorem traced_entered (call : Invocation) (s : State) :
    ∃ t leave, (∀ {α : Type} (body : Eval α), traced call body s = ensuring body leave t) ∧
      t.context.stack = s.context.stack := by
  cases isActive : s.shared.monitor.isActive with
  | false =>
    refine ⟨s, id, fun body => ?_, rfl⟩
    rw [ensuring_id]
    simp only [traced, Bind.bind, EStateM.bind, Eval.read, isActive]
    rfl
  | true =>
    refine ⟨s.fire (call.entry s), (·.fire { call.entry s with kind := call.exitKind }),
      fun body => ?_, rfl⟩
    simp only [traced, Bind.bind, EStateM.bind, Eval.read, isActive]
    rfl

/-- A call that is not refused runs its body under its own frames. -/
theorem entering_entered {config : CallConfig} {call : Invocation}
    (admitted : config.refusal call s.context.stack = none) :
    ∃ t leave, Entered config call s t leave := by
  obtain ⟨fits, -⟩ := entering_admitted (pure ()) admitted
  obtain ⟨t, popFrames, framed, frames, -⟩ := withFrames_admitted fits
  obtain ⟨u, popScope, inScope, stack, -⟩ :=
    withNewScope_entered (if config.pushesScope then call.scope else none) t
  obtain ⟨v, close, traces, stack'⟩ := traced_entered call u
  refine ⟨v, popFrames ∘ popScope ∘ close, fun body => ?_, ?_⟩
  · rw [(entering_admitted body admitted).2, framed]
    exact ensuring_inside ((inScope _).trans (ensuring_inside (traces body) popScope)) popFrames
  · rw [stack', stack, frames]

end Eval

/-- Only the innermost frame of a call has a name. -/
theorem CallConfig.names_frames {config : CallConfig} (pushes : config.pushesFrame)
    (call : Invocation) (outer : List Frame) :
    ((config.frames call).reverse ++ outer).filterMap (·.name) =
      call.name :: outer.filterMap (·.name) := by
  unfold CallConfig.frames
  split
  · cases pushes
  · rfl
  · rfl

theorem Outcome.atMethod_known {target : Target} {outcome : Outcome} {e : EvalError}
    (crossed : outcome.atMethod target = .error (.error e)) (known : e.backtrace ≠ []) :
    outcome = .error (.error e) := by
  unfold Outcome.atMethod at crossed
  split at crossed
  · split at crossed <;> cases crossed
  · next g _ =>
    split at crossed
    · cases crossed
      cases g <;> first | rfl | exact absurd rfl known
    · exact crossed
  · exact crossed

/-- A body, once its arguments are bound. -/
def Eval.withArguments (bound : Nat) (ask : Responder) (params : Params Node) (call : Call)
    (body : Eval Value) : Eval Value := do
  bindArguments (Tree.eval bound ask) params call.args call.block
  body

section

variable {bound : Nat} {ask : Responder} {m : Method} {params : Params Node} {call : Call}
  {body : Eval Value} {s s' : State} {e : EvalError}

/-- The frames that are there when the body ends are in the backtrace of its error. -/
theorem Eval.methodBody_error
    (truthful : Truthful (withArguments bound ask params call body))
    (ends : methodBody (Tree.eval bound ask) m params call body s = .error (.signal (.error e)) s') :
    s'.context.stack.backtrace <:+ e.backtrace := by
  cases result : observe (withArguments bound ask params call body) s with
  | error halt t =>
    cases (bind_error result).symm.trans ends
    exact (Emits.observe (Q := fun _ => False) _ _ _ _ result).elim
  | ok outcome t =>
    have leaving : ofOutcome ((outcome.atMethod m.target).traced t.context.stack) t =
        .error (.signal (.error e)) s' := (bind_ok result).symm.trans ends
    obtain ⟨same, rfl⟩ := ofOutcome_signal leaving
    rcases Outcome.traced_cases _ _ with ⟨kept, traced⟩ | ⟨_, -, -, added⟩
    · have crossed := kept.symm.trans same
      have known := traced e crossed
      obtain rfl := Outcome.atMethod_known crossed known
      have passes : (observe _ >>= ofOutcome) s = .error (.signal (.error e)) t := bind_ok result
      rw [observe_ofOutcome] at passes
      exact truthful s e t passes known
    · cases added.symm.trans same
      exact List.suffix_refl _

/-- The end of a method leaves a backtrace alone. -/
theorem Eval.methodBody_known
    (raised : withArguments bound ask params call body s = .error (.signal (.error e)) s')
    (known : e.backtrace ≠ []) :
    methodBody (Tree.eval bound ask) m params call body s = .error (.signal (.error e)) s' := by
  have ends : methodBody (Tree.eval bound ask) m params call body s =
      ofOutcome (Outcome.traced s'.context.stack (.error (.error e))) s' :=
    bind_ok (observe_signal raised)
  rcases Outcome.traced_cases s'.context.stack (.error (.error e)) with
    ⟨kept, -⟩ | ⟨_, same, untraced, -⟩
  · rw [ends, kept]
    rfl
  · cases same
    exact absurd untraced known

/-- Once the method is entered, its errors name it and its callers. -/
theorem Eval.runBody_error (pushes : m.config.pushesFrame)
    (admitted : m.config.refusal (m.invocation call) s.context.stack = none)
    (restores : Restores (methodBody (Tree.eval bound ask) m params call body))
    (truthful : Truthful (withArguments bound ask params call body))
    (ends : runBody bound ask m params call body s = .error (.signal (.error e)) s') :
    call.name :: s.context.stack.backtrace <:+ e.backtrace := by
  obtain ⟨t, leave, entered⟩ := entering_entered admitted
  rw [runBody_eq, entered.runs] at ends
  obtain ⟨u, inside, -⟩ := ensuring_error ends
  have names : t.context.stack.backtrace = call.name :: s.context.stack.backtrace := by
    unfold FrameStack.backtrace
    rw [entered.frames, CallConfig.names_frames pushes]
    rfl
  have reached := methodBody_error truthful inside
  rwa [restores.backtrace inside, names] at reached

/-- What comes out of a method with a backtrace would come out of its body as well. -/
theorem Eval.runBody_known
    (ends : entering m.config (m.invocation call) (withArguments bound ask params call body) s =
      .error (.signal (.error e)) s') (known : e.backtrace ≠ []) :
    runBody bound ask m params call body s = .error (.signal (.error e)) s' := by
  rw [runBody_eq]
  cases admitted : m.config.refusal (m.invocation call) s.context.stack with
  | some refused => rwa [entering_refused admitted] at ends ⊢
  | none =>
    obtain ⟨t, leave, entered⟩ := entering_entered admitted
    rw [entered.runs] at ends ⊢
    obtain ⟨u, raised, rfl⟩ := ensuring_error ends
    simp only [ensuring, methodBody_known raised known]

end

/-- A backtrace goes through all the frames that are left. That of an error which leaves a method goes
through the method and its callers, and the ends of methods further out leave it as it is. -/
theorem backtraces_truthful (fuel : Nat) :
    (∀ node, Truthful (Engine.evalNode fuel node)) ∧
    (∀ receiver name args block type,
      Truthful (Engine.dispatch fuel receiver name args block type)) ∧
    (∀ method call, Truthful (Engine.invoke fuel method call)) ∧
    (∀ closure args, Truthful (Engine.callClosure fuel closure args)) ∧
    (∀ closure delivery, Truthful (Engine.yield fuel closure delivery)) ∧
    (∀ (id : MethodId) (call : Call) (s : State) e s',
      let m := s.shared.library.method id
      m.HasBody → m.config.pushesFrame →
      m.config.refusal (m.invocation call) s.context.stack = none →
      Engine.invoke fuel id call s = .error (.signal (.error e)) s' →
      call.name :: s.context.stack.backtrace <:+ e.backtrace) ∧
    ∀ (m : Method) params call (body : Eval Value) s e s',
      entering m.config (m.invocation call) (withArguments fuel (answer fuel) params call body) s =
        .error (.signal (.error e)) s' → e.backtrace ≠ [] →
      runBody fuel (answer fuel) m params call body s = .error (.signal (.error e)) s' := by
  have h := Truthful.compositional
  refine ⟨h.evalNode fuel, h.dispatch fuel, fun id call => h.answer fuel _, h.callClosure fuel,
    fun id delivery => h.answer fuel _, ?_, ?_⟩
  · intro id call s e s' m hasBody pushes admitted ends
    cases fuel with
    | zero => cases ends
    | succ fuel =>
      have keeps := Restores.compositional
      have enough : fuel = 0 → True := fun _ => trivial
      obtain ⟨params, body, s₁, place, runs⟩ := invoke_runs fuel call hasBody
      have context : s₁.context = s.context := by
        rcases place with rfl | rfl
        · rfl
        · exact s.promote_context id call.name
      rw [← context] at admitted ⊢
      have restores := keeps.methodBody (keeps.answer fuel) fuel enough m params call
        (keeps.bodyRun (keeps.answer fuel) fuel enough body)
      have binds := h.bindArguments (h.answer fuel) fuel enough params call.args call.block
      have truthful : Truthful (withArguments fuel (answer fuel) params call (body.run _ _)) :=
        h.bind binds fun _ => h.bodyRun (h.answer fuel) fuel enough body
      exact runBody_error pushes admitted restores truthful ((runs (answer fuel)).symm.trans ends)
  · intro m params call body s e s' ends known
    exact runBody_known ends known

/-- A method that raises an error is called under a frame of the name main, and by another method
there, whose end leaves the backtrace alone. -/
theorem backtraces_truthful_nested :
    let raising : Method := ⟨Core.object, .pub, .frameAndScope, ⟨1⟩,
      .interpreted ⟨0, {}, .raise (.str "failed")⟩ {}⟩
    let calling : Method := ⟨Core.object, .pub, .frameOnly, ⟨2⟩, .interpreted ⟨0, {}, .nil⟩ {}⟩
    let s : State :=
      ⟨{ library.methods := #[raising] },
        { id := 0, main := ⟨0, 0⟩, scopes := [[]],
          stack := .ofRoot { self := .nil, name := some "main" } none }⟩
    let inner := Engine.invoke 2 0 ⟨.nil, "inner", [], none⟩
    let failed (backtrace : List String) := { EvalError.runtime "failed" with backtrace }
    (∃ s', inner s = .error (.signal (.error (failed ["inner", "main"]))) s' ∧
      "inner" :: s.context.stack.backtrace <:+ ["inner", "main"] ∧
      s'.context.stack.backtrace <:+ ["inner", "main"]) ∧
    ∃ s', runBody 2 (answer 2) calling {} ⟨.nil, "outer", [], none⟩ inner s =
      .error (.signal (.error (failed ["inner", "outer", "main"]))) s' := by
  intro raising calling s inner failed
  obtain ⟨-, -, invokes, -, -, named, known⟩ := backtraces_truthful 2
  have ends : ∃ s', inner s = .error (.signal (.error (failed ["inner", "main"]))) s' := ⟨_, rfl⟩
  have under : ∃ s', entering calling.config (calling.invocation ⟨.nil, "outer", [], none⟩)
      (withArguments 2 (answer 2) {} ⟨.nil, "outer", [], none⟩ inner) s =
        .error (.signal (.error (failed ["inner", "outer", "main"]))) s' := ⟨_, rfl⟩
  obtain ⟨s', ends⟩ := ends
  obtain ⟨t, under⟩ := under
  refine ⟨⟨s', ends, named 0 _ s _ s' nofun rfl rfl ends, invokes 0 _ s _ s' ends nofun⟩, t, ?_⟩
  exact known calling {} _ inner s _ t under nofun

end CallEngine
