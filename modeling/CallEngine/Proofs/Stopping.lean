import CallEngine.Proofs.Interrupts
import CallEngine.Proofs.OwnFrames
/-! A pending request to stop ends every evaluation: whatever repeats polls first, and whatever nests
pushes a frame. So the frames that still fit bound how deep calls and yields can go. -/
namespace CallEngine
open Eval

/-- A context that is asked to stop and may push `room` more frames. -/
structure State.Stopping (room : Nat) (s : State) : Prop where
  hasFrames : s.shared.HasFrames
  pending : s.isPending = true
  room : ∃ limit, s.context.stack.limit = some limit ∧ limit ≤ s.context.stack.depth + room

/-- The request is pending still, with as much room as before. -/
structure State.Stays (s t : State) : Prop where
  hasFrames : s.shared.HasFrames → t.shared.HasFrames
  pending : s.isPending = true → t.isPending = true
  limit : t.context.stack.limit = s.context.stack.limit
  depth : t.context.stack.depth = s.context.stack.depth

namespace State

variable {s t u : State} {room : Nat}

namespace Stays

theorem of_eq (library : t.shared.library = s.shared.library)
    (pending : t.isPending = s.isPending) (stack : t.context.stack = s.context.stack) :
    s.Stays t where
  hasFrames hasFrames id := library ▸ hasFrames id
  pending before := pending.trans before
  limit := congrArg _ stack
  depth := congrArg _ stack

theorem of_hasFrames (hasFrames : s.shared.HasFrames → t.shared.HasFrames)
    (same : t.surroundings = s.surroundings) : s.Stays t where
  hasFrames := hasFrames
  pending before := by
    have monitor : t.shared.monitor = s.shared.monitor := (congrArg Surroundings.monitor same :)
    have id : t.context.id = s.context.id := (congrArg Surroundings.id same :)
    simpa only [isPending, monitor, id] using before
  limit := (congrArg (fun around : Surroundings => around.stack.limit) same :)
  depth := (congrArg (fun around : Surroundings => around.stack.depth) same :)

theorem refl (s : State) : s.Stays s := of_eq rfl rfl rfl

theorem trans (first : s.Stays t) (second : t.Stays u) : s.Stays u where
  hasFrames := second.hasFrames ∘ first.hasFrames
  pending := second.pending ∘ first.pending
  limit := second.limit.trans first.limit
  depth := second.depth.trans first.depth

theorem stopping (stays : s.Stays t) (stopping : s.Stopping room) : t.Stopping room := by
  obtain ⟨limit, bounded, fits⟩ := stopping.room
  exact ⟨stays.hasFrames stopping.hasFrames, stays.pending stopping.pending, limit,
    stays.limit.trans bounded, stays.depth ▸ fits⟩

theorem fire (s : State) (event : Event) : s.Stays (s.fire event) :=
  ⟨id, fun pending => (Monitor.fire_isPending ..).2 (.inl pending), rfl, rfl⟩

theorem promote (s : State) (id : MethodId) (name : String) : s.Stays (s.promote id name).2 := by
  have context := s.promote_context id name
  refine ⟨promote_hasFrames id name, fun pending => ?_, by rw [context], by rw [context]⟩
  simpa only [isPending, context, s.promote_monitor id name] using pending

theorem motion : Motion Stays where
  refl := refl
  trans := trans
  visibility _ _ := ⟨id, id, rfl, rfl⟩
  scopes _ _ := of_eq rfl rfl rfl
  enterLive _ _ := of_eq rfl rfl rfl
  leaveLive _ _ := of_eq rfl rfl rfl
  quiet quiet s := of_hasFrames (quiet.hasFrames s) (quiet.surroundings s)
  memory _ _ := of_eq rfl rfl rfl
  newClosure _ _ _ _ := of_eq rfl rfl rfl
  newMethod _ owner visibility definition := by
    refine ⟨fun hasFrames => ?_, id, rfl, rfl⟩
    have own (target : Target) : Method.HasFrame
        ⟨owner, visibility, .frameAndScope, target, .interpreted definition {}⟩ := .inl (by simp)
    exact hasFrames.addMethod own

end Stays

/-- With less room than there may be. -/
theorem Stopping.mono {more : Nat} (stopping : s.Stopping room) (le : room ≤ more) :
    s.Stopping more := by
  obtain ⟨limit, bounded, fits⟩ := stopping.room
  exact ⟨stopping.hasFrames, stopping.pending, limit, bounded, by omega⟩

/-- A frame that fits takes one from the room. -/
theorem Stopping.pushed (stopping : s.Stopping room) {frame : Frame} {stack : FrameStack}
    (push : s.context.stack.push frame = .ok stack) :
    ∃ less, room = less + 1 ∧ (s.pushed stack).Stopping less := by
  obtain ⟨limit, bounded, fits⟩ := stopping.room
  have free : s.context.stack.depth < limit := by
    simp only [FrameStack.push, bounded] at push
    split at push
    · cases push
    · omega
  obtain rfl := FrameStack.push_eq push
  refine ⟨room - 1, by omega, stopping.hasFrames, stopping.pending, limit, bounded, ?_⟩
  change limit ≤ s.context.stack.depth + 1 + (room - 1)
  omega

end State

theorem CallConfig.frames_ne_nil {config : CallConfig} (pushes : config ≠ .inPlace)
    (call : Invocation) : config.frames call ≠ [] := by
  unfold CallConfig.frames
  split
  · exact absurd rfl pushes
  · nofun
  · nofun

theorem Builtin.run_quiet {builtin : Builtin} (isQuiet : builtin.isQuiet) {bound : Nat}
    {ask : Responder} {call : Call} (other : Nat) (answers : Responder) :
    builtin.run bound ask call = builtin.run other answers call := by
  cases builtin <;> first | rfl | cases isQuiet

/-- Not for want of fuel: the request to stop comes out, or it is pending still. -/
def EndsStopping (room : Nat) : Post := fun s halt t => s.Stopping room →
  halt ≠ some .exhausted ∧ (Interrupted halt ∨ s.Stays t)

abbrev Stops (room : Nat) : EvalProperty := Meets (EndsStopping room)

theorem EndsStopping.next {room : Nat} {s t u : State} {first halt : Option Halt}
    (before : EndsStopping room s first t) (goesOn : ¬Interrupted first)
    (after : EndsStopping room t halt u) : EndsStopping room s halt u := by
  intro stopping
  have stays := (before stopping).2.resolve_left goesOn
  obtain ⟨enough, ends⟩ := after (stays.stopping stopping)
  exact ⟨enough, ends.imp_right stays.trans⟩

theorem EndsStopping.chains (room : Nat) : (EndsStopping room).Chains where
  motion := State.Stays.motion.weaken (fun stays _ => ⟨nofun, .inr stays⟩)
    fun first second => first.next id second
  next first second := first.next id second
  handle isOpen first second := by
    refine first.next (isOpen.not_fails ?_) second
    rintro kind rfl
    rfl
  lastly first second stopping := by
    obtain ⟨enough, ends⟩ := first stopping
    refine ⟨enough, ends.imp_right fun stays => stays.trans ?_⟩
    exact (second (stays.stopping stopping)).2.resolve_left id
  located _ ends stopping := ⟨nofun, (ends stopping).2⟩
  halts s halt ordinary _ := by
    refine ⟨?_, .inr (.refl s)⟩
    rintro ⟨⟩
    exact ordinary

theorem EndsStopping.promote (room : Nat) (s : State) (id : MethodId) (name : String) :
    EndsStopping room s none (s.promote id name).2 :=
  fun _ => ⟨nofun, .inr (.promote s id name)⟩

namespace Stops

variable {room : Nat}

/-- The body runs with less room, if it runs at all. -/
theorem pushing {α : Type} {frame : Frame} {body : Eval α}
    (inside : ∀ less, room = less + 1 → Stops less body) : Stops room (Eval.withFrame frame body) := by
  intro s stopping
  rw [Eval.withFrame_eq]
  cases push : s.context.stack.push frame with
  | error e =>
    obtain ⟨limit, -, -, rfl⟩ := FrameStack.push_error push
    exact ⟨nofun, .inr (.refl s)⟩
  | ok stack =>
    obtain ⟨less, own, pushed⟩ := stopping.pushed push
    obtain ⟨enough, ends⟩ := inside less own (s.pushed stack) pushed
    obtain rfl := FrameStack.push_eq push
    have popped (t : State) (stays : (s.pushed (s.context.stack.add frame)).Stays t) :
        s.Stays t.popFrame := by
      refine ⟨stays.hasFrames, stays.pending, stays.limit, ?_⟩
      change t.context.stack.depth - 1 = _
      rw [stays.depth]
      rfl
    dsimp only [Eval.ensuring]
    cases result : body _ <;> rw [result] at enough ends <;>
      exact ⟨enough, ends.imp_right (popped _)⟩

theorem mono {more : Nat} (le : room ≤ more) {α : Type} {x : Eval α} (stops : Stops more x) :
    Stops room x :=
  fun s stopping => stops s (stopping.mono le)

theorem withFrame {α : Type} {frame : Frame} {body : Eval α} (holds : Stops room body) :
    Stops room (Eval.withFrame frame body) :=
  pushing fun less own => holds.mono (by omega)

theorem withFrames {α : Type} {body : Eval α} (holds : Stops room body) (frames : List Frame) :
    Stops room (Eval.withFrames frames body) := by
  induction frames with
  | nil => exact holds
  | cons frame frames ih => exact withFrame ih

/-- A poll ends it, so nothing that is run again needs fuel. -/
theorem composing (room : Nat) : Composing (Stops room) False := by
  have chains := EndsStopping.chains room
  refine chains.composing (chains.framing False.elim (fun _ s stopping => ?_) withFrame
    (chains.traced fun s event _ => ⟨nofun, .inr (.fire s event)⟩))
    (EndsStopping.promote room)
  rw [bind_error (poll_pending stopping.pending)]
  exact ⟨nofun, .inl rfl⟩

theorem entering {α : Type} {body : Eval α} {config : CallConfig} (pushes : config ≠ .inPlace)
    (call : Invocation) (inside : ∀ less, room = less + 1 → Stops less body) :
    Stops room (Eval.entering config call body) := by
  have framed (scope : Option StaticId) : Stops room (Eval.withFrames (config.frames call) <|
      Eval.withNewScope scope <| Eval.traced call body) := by
    obtain ⟨frame, frames, own⟩ := List.exists_cons_of_ne_nil (config.frames_ne_nil pushes call)
    rw [own]
    refine pushing fun less own => withFrames ?_ frames
    have h := composing less
    exact h.withNewScope (h.traced call (inside less own)) scope
  unfold Eval.entering
  dsimp only
  split
  · exact (composing room).bind ((composing room).checkArity _ _) fun _ => framed _
  · exact framed _

section asking

-- Below the next frame, requests are answered and loops may be run.
variable {bound : Nat} {ask : Responder}
  (asks : ∀ less, room = less + 1 → bound ≠ 0 ∧ ∀ request, Stops less (ask request))
include asks

theorem runBody {m : Method} (pushes : m.config ≠ .inPlace) (params : Params Node) (call : Call)
    {body : Eval Value} (holds : ∀ less, room = less + 1 → Stops less body) :
    Stops room (Eval.runBody bound ask m params call body) := by
  rw [Eval.runBody_eq]
  refine entering pushes _ fun less own => ?_
  exact (composing less).methodBody (asks less own).2 bound (asks less own).1 m params call
    (holds less own)

theorem runBuiltin {m : Method} (hasFrame : m.HasFrame) {builtin : Builtin}
    (body : m.body = .builtin builtin) (call : Call) :
    Stops room (Eval.entering m.config (m.invocation call) (builtin.run bound ask call)) := by
  rcases hasFrame with pushes | ⟨same, own, isQuiet⟩
  · refine entering pushes _ fun less own => ?_
    exact (composing less).steering.builtin (asks less own).2 bound (asks less own).1 builtin call
  · have h := composing room
    obtain rfl : builtin = same := by
      cases body.symm.trans own
      rfl
    -- It does not matter what a quiet method could ask.
    rw [builtin.run_quiet isQuiet 1 fun _ => Pure.pure .nil]
    refine h.entering m.config (m.invocation call) ?_ (by simp [Method.invocation, body])
    exact h.steering.builtin (fun _ => h.pure _) 1 Nat.one_ne_zero builtin call

theorem invoke (id : MethodId) (call : Call) : Stops room (Eval.invoke bound ask id call) := by
  intro s stopping
  have found : Eval.invoke bound ask id call s = _ := bind_ok (x := Eval.method id) rfl
  have hasFrame := stopping.hasFrames id
  rw [found]
  dsimp only
  generalize s.shared.library.method id = m at hasFrame
  have trees (node : Node) (less : Nat) (own : room = less + 1) :=
    (composing less).eval (asks less own).2 bound (asks less own).1 node
  have codes (code : Code) (less : Nat) (own : room = less + 1) :=
    (composing less).exec (asks less own).2 bound (asks less own).1 code
  cases body : m.body with
  | builtin builtin => exact runBuiltin asks hasFrame body call s stopping
  | compiled scope params code =>
    have pushes := hasFrame.resolve_right fun ⟨_, own, _⟩ => nomatch body.symm.trans own
    exact runBody asks pushes params call (codes code) s stopping
  | interpreted definition promotion =>
    have pushes := hasFrame.resolve_right fun ⟨_, own, _⟩ => nomatch body.symm.trans own
    have chains := EndsStopping.chains room
    refine chains.bind (chains.codeToRun (EndsStopping.promote room) id call.name) (fun code => ?_) s stopping
    cases code with
    | some code => exact runBody asks pushes _ call (codes code)
    | none => exact runBody asks pushes _ call (trees definition.body)

theorem yieldTo (methods : ∀ id call, Stops room (ask (.invoke id call))) (id : ClosureId)
    (delivery : Delivery) : Stops room (Eval.yieldTo bound ask id delivery) := by
  have h := composing room
  refine h.bind (h.steering.closure id) fun yielded => ?_
  split
  · refine h.bind (h.storage.enterScope _ _) fun env => pushing fun less own => ?_
    exact (composing less).literalBody (asks less own).2 bound (asks less own).1
      ((composing less).claim yielded.target) _ delivery env
  · exact methods _ _

end asking

/-- Two calls for each frame: one of a closure and one of the method that it may stand for. -/
theorem answer (room fuel : Nat) :
    (2 * room + 1 ≤ fuel → ∀ id call, Stops room (Eval.answer fuel (.invoke id call))) ∧
      (2 * room + 2 ≤ fuel → ∀ request, Stops room (Eval.answer fuel request)) := by
  induction fuel generalizing room with
  | zero => exact ⟨by omega, by omega⟩
  | succ fuel ih =>
    have asks (enough : 2 * room ≤ fuel) (less : Nat) (own : room = less + 1) :
        fuel ≠ 0 ∧ ∀ request, Stops less (Eval.answer fuel request) :=
      ⟨by omega, (ih less).2 (by omega)⟩
    refine ⟨fun enough id call => invoke (asks (by omega)) id call, fun enough request => ?_⟩
    cases request with
    | invoke id call => exact invoke (asks (by omega)) id call
    | yield id delivery => exact yieldTo (asks (by omega)) ((ih room).1 (by omega)) id delivery

end Stops

/-- Scripts and hosts that give methods frames reach only states in which a request to stop, if the
frames are bounded, ends whatever is evaluated. -/
theorem pending_interrupt_stops :
    (∀ config backend tellsCompiles hooks contexts firstTarget fuel steps,
      (∀ step ∈ steps, step.command.keepsFrames = true) →
        ((Session.start config backend tellsCompiles hooks contexts firstTarget).after fuel
          steps).shared.HasFrames) ∧
    ∀ (s : State) (limit : Nat), s.shared.HasFrames → s.context.stack.limit = some limit →
      s.isPending = true → ∀ fuel, 2 * (limit - s.context.stack.depth) + 2 ≤ fuel →
        (∀ node, halted (Engine.evalNode fuel node s) ≠ some .exhausted) ∧
        (∀ receiver name args block type,
          halted (Engine.dispatch fuel receiver name args block type s) ≠ some .exhausted) ∧
        (∀ method call, halted (Engine.invoke fuel method call s) ≠ some .exhausted) ∧
        (∀ closure args, halted (Engine.callClosure fuel closure args s) ≠ some .exhausted) ∧
        (∀ closure delivery, halted (Engine.yield fuel closure delivery s) ≠ some .exhausted) ∧
        (∀ scope body, halted (Engine.runToplevel fuel scope body s) ≠ some .exhausted) ∧
        ∀ receiver name args, halted (Engine.send fuel receiver name args s) ≠ some .exhausted := by
  refine ⟨fun config backend tellsCompiles hooks contexts firstTarget fuel steps keep => ?_,
    fun s limit hasFrames bounded pending fuel enough => ?_⟩
  · exact Session.after_hasFrames fuel keep
      (Session.start_hasFrames config backend tellsCompiles hooks contexts firstTarget)
  · have stopping : s.Stopping (limit - s.context.stack.depth) :=
      ⟨hasFrames, pending, limit, bounded, by omega⟩
    have asks := (Stops.answer (limit - s.context.stack.depth) fuel).2 enough
    have h := Stops.composing (limit - s.context.stack.depth)
    have positive : fuel ≠ 0 := by omega
    refine ⟨fun node => (h.eval asks fuel positive node s stopping).1,
      fun receiver name args block type => ?_, fun method call => (asks _ s stopping).1,
      fun closure args => (h.steering.callClosure asks closure args s stopping).1,
      fun closure delivery => (asks _ s stopping).1, fun scope body => ?_,
      fun receiver name args => ?_⟩
    · exact (h.steering.dispatch asks receiver name args block type (fun _ _ => h.makeClosure _ _)
        s stopping).1
    · exact (h.surfaced (h.toplevelOf (h.eval asks fuel positive body) scope) s stopping).1
    · exact (h.surfaced (h.steering.callMethod asks receiver name args none .normal) s stopping).1

/-- A method that calls itself stops at the last frame that fits, and a loop at its first poll. -/
theorem pending_interrupt_stops_recursion :
    let steps : List Session.Step :=
      [{ command := .run (.define "again" {} {} (.bareCall "again")) [] none },
        { command := .interrupt }]
    let session := (Session.start { depthLimit := some 3 } .lowering true [] 1 1).after 5 steps
    let s : State := ⟨session.shared, session.contexts.getD 0 default⟩
    let halts (node : Node) := halted (Engine.evalNode 6 node s)
    (halts (.bareCall "again")).isSome ∧ halts (.bareCall "again") ≠ some .exhausted ∧
      (halts (.loop (.bool true) .nil)).isSome ∧
      halts (.loop (.bool true) .nil) ≠ some .exhausted := by
  intro steps session s halts
  have keep : ∀ step ∈ steps, step.command.keepsFrames = true := by decide
  have hasFrames := pending_interrupt_stops.1 { depthLimit := some 3 } .lowering true [] 1 1 5 steps
    keep
  have stops := (pending_interrupt_stops.2 s 3 hasFrames (by decide +kernel) (by decide +kernel) 6
    (by decide +kernel)).1
  exact ⟨by decide +kernel, stops _, by decide +kernel, stops _⟩

end CallEngine
