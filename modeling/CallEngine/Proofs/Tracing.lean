import CallEngine.Proofs.Containment
import CallEngine.Proofs.Interrupts
/-! Events as brackets. A body that was entered is reported before and after, with nothing shallower
in between, however it ends. A call that is refused is not reported at all. -/
namespace CallEngine
open Eval

/-- The kind of event that closes what one of this kind opens. -/
def EventKind.closing : EventKind → Option EventKind
  | call => some ret
  | builtinCall => some builtinReturn
  | ret | builtinReturn => none

/-- Brackets that close in the order opposite to that in which they opened. What closes one has the
name, the class and the depth of what opened it, and nothing inside has less depth. -/
inductive Balanced : List Event → Prop where
  | nil : Balanced []
  | pair {opening : Event} {kind : EventKind} {inside rest : List Event} :
    opening.kind.closing = some kind → Balanced inside →
    (∀ event ∈ inside, opening.depth ≤ event.depth) → Balanced rest →
      Balanced (opening :: inside ++ { opening with kind } :: rest)

theorem Balanced.append {first second : List Event} (left : Balanced first)
    (right : Balanced second) : Balanced (first ++ second) := by
  induction left with
  | nil => exact right
  | pair closes inside deeper _ _ ih =>
    have whole := pair closes inside deeper ih
    simpa using whole

namespace Monitor

/-- The hooks, and what they were told, are as after these events. -/
structure Hears (before : Monitor) (events : List Event) (after : Monitor) : Prop where
  hooks : after.hooks = (events.foldl fire before).hooks
  deliveries : after.deliveries = (events.foldl fire before).deliveries

/-- What the hooks are told of these events if all of them stay, each event in the order of
registration. -/
def tells (monitor : Monitor) (events : List Event) : List (Nat × Event) :=
  events.flatMap fun event =>
    (monitor.hooks.filter (·.wants event)).map fun hook => (hook.id, event)

theorem Hears.of_eq {before after : Monitor} (hooks : after.hooks = before.hooks)
    (deliveries : after.deliveries = before.deliveries) : before.Hears [] after :=
  ⟨hooks, deliveries⟩

/-- Requests to stop have no part in what hooks hear. -/
theorem foldl_fire_congr {a b : Monitor} (hooks : a.hooks = b.hooks)
    (deliveries : a.deliveries = b.deliveries) (events : List Event) :
    (events.foldl fire a).hooks = (events.foldl fire b).hooks ∧
      (events.foldl fire a).deliveries = (events.foldl fire b).deliveries := by
  induction events generalizing a b with
  | nil => exact ⟨hooks, deliveries⟩
  | cons event events ih =>
    apply ih
    · rw [fire_hooks, fire_hooks, hooks]
    · apply Array.toList_inj.1
      rw [fire_deliveries, fire_deliveries, hooks, deliveries]

theorem Hears.trans {a b c : Monitor} {first second : List Event} (left : a.Hears first b)
    (right : b.Hears second c) : a.Hears (first ++ second) c := by
  have same := foldl_fire_congr left.hooks left.deliveries second
  constructor
  · rw [right.hooks, same.1, List.foldl_append]
  · rw [right.deliveries, same.2, List.foldl_append]

theorem Hears.fire (monitor : Monitor) (event : Event) :
    monitor.Hears [event] (monitor.fire event) := ⟨rfl, rfl⟩

end Monitor

/-- What a hook keeps as long as it stays. -/
def Hook.subscription (hook : Hook) : Nat × List EventKind := (hook.id, hook.mask)

namespace Monitor

theorem fire_sublist (monitor : Monitor) (event : Event) : ((monitor.fire event).hooks.map Hook.subscription).Sublist
    (monitor.hooks.map Hook.subscription) := by
  rw [fire_hooks]
  induction monitor.hooks with
  | nil => exact .slnil
  | cons hook hooks ih =>
    rw [List.filterMap_cons, List.map_cons]
    cases stays : hook.after event with
    | none => exact ih.cons _
    | some next =>
      have same : next.subscription = hook.subscription := by
        unfold Hook.after at stays
        split at stays
        · split at stays <;> cases stays
          rfl
        · cases stays
          rfl
      rw [List.map_cons, same]
      exact ih.cons_cons _

theorem foldl_fire_sublist (monitor : Monitor) (events : List Event) :
    ((events.foldl fire monitor).hooks.map Hook.subscription).Sublist
      (monitor.hooks.map Hook.subscription) := by
  induction events generalizing monitor with
  | nil => exact List.Sublist.refl _
  | cons event events ih => exact (ih _).trans (monitor.fire_sublist event)

theorem tells_congr {a b : Monitor}
    (same : a.hooks.map Hook.subscription = b.hooks.map Hook.subscription) (events : List Event) :
    a.tells events = b.tells events := by
  have told (monitor : Monitor) (event : Event) :
      ((monitor.hooks.filter (·.wants event)).map fun hook => (hook.id, event)) =
        ((monitor.hooks.map Hook.subscription).filter (·.2.contains event.kind)).map
          fun own => (own.1, event) := by
    rw [List.filter_map, List.map_map]
    rfl
  simp only [tells, told, same]

/-- If no hook is gone at the end, none left on the way. -/
theorem foldl_fire_deliveries {monitor : Monitor} (events : List Event)
    (fixed : (events.foldl fire monitor).hooks.length = monitor.hooks.length) :
    (events.foldl fire monitor).deliveries.toList =
      monitor.deliveries.toList ++ monitor.tells events := by
  induction events generalizing monitor with
  | nil => simp [tells]
  | cons event events ih =>
    have first := monitor.fire_sublist event
    have later := ((monitor.fire event).foldl_fire_sublist events).length_le
    have bound := first.length_le
    simp only [List.length_map, List.foldl_cons] at later bound fixed
    have same := first.eq_of_length (by simp only [List.length_map]; omega)
    rw [List.foldl_cons, ih (by omega), fire_deliveries, tells_congr same, List.append_assoc]
    rfl

theorem Hears.told {before after : Monitor} {events : List Event}
    (hears : before.Hears events after)
    (fixed : after.hooks.map Hook.id = before.hooks.map Hook.id) :
    after.deliveries.toList = before.deliveries.toList ++ before.tells events := by
  have lengths := congrArg List.length fixed
  simp only [List.length_map, hears.hooks] at lengths
  rw [hears.deliveries, foldl_fire_deliveries events lengths]

/-- Each hook is told of the events that it wants. -/
theorem tells_hook {monitor : Monitor} {hook : Hook} (unique : (monitor.hooks.map Hook.id).Nodup)
    (member : hook ∈ monitor.hooks) (events : List Event) :
    ((monitor.tells events).filter (·.1 == hook.id)).map (·.2) = events.filter hook.wants := by
  have once (event : Event) (hooks : List Hook) (unique : (hooks.map Hook.id).Nodup)
      (member : hook ∈ hooks) :
      ((hooks.filter (·.wants event)).map fun hook => (hook.id, event)).filter
        (·.1 == hook.id) = if hook.wants event then [(hook.id, event)] else [] := by
    induction hooks with
    | nil => cases member
    | cons first hooks ih =>
      rw [List.map_cons, List.nodup_cons] at unique
      rcases List.mem_cons.1 member with rfl | member
      · have others : ((hooks.filter (·.wants event)).map fun other => (other.id, event)).filter
            (·.1 == hook.id) = [] := by
          simp only [List.filter_eq_nil_iff, List.mem_map, List.mem_filter, beq_iff_eq]
          rintro _ ⟨other, ⟨own, -⟩, rfl⟩ same
          exact unique.1 (List.mem_map.2 ⟨other, own, same⟩)
        rw [List.filter_cons]
        split <;> simp [others]
      · have differs : first.id ≠ hook.id := fun same =>
          unique.1 (List.mem_map.2 ⟨hook, member, same.symm⟩)
        rw [List.filter_cons]
        split <;> simp [differs, ih unique.2 member]
  induction events with
  | nil => rfl
  | cons event events ih =>
    have head := once event monitor.hooks unique member
    simp only [tells, List.flatMap_cons, List.filter_append, List.map_append] at ih ⊢
    rw [head, ih, List.filter_cons]
    split <;> simp

end Monitor

/-- Balanced events, none of them shallower than the frames there are before and after. -/
structure State.Fires (s : State) (events : List Event) (t : State) : Prop where
  depth : t.context.stack.depth = s.context.stack.depth
  balanced : Balanced events
  deeper : ∀ event ∈ events, s.context.stack.depth ≤ event.depth
  heard : s.shared.monitor.Hears events t.shared.monitor

namespace State.Fires

variable {s t u : State}

theorem of_eq (depth : t.context.stack.depth = s.context.stack.depth)
    (hooks : t.shared.monitor.hooks = s.shared.monitor.hooks)
    (deliveries : t.shared.monitor.deliveries = s.shared.monitor.deliveries) : s.Fires [] t :=
  ⟨depth, .nil, nofun, .of_eq hooks deliveries⟩

theorem trans {first second : List Event} (left : s.Fires first t) (right : t.Fires second u) :
    s.Fires (first ++ second) u where
  depth := right.depth.trans left.depth
  balanced := left.balanced.append right.balanced
  deeper event member := by
    rcases List.mem_append.1 member with member | member
    · exact left.deeper event member
    · exact left.depth ▸ right.deeper event member
  heard := left.heard.trans right.heard

end State.Fires

/-- Between the two some balanced events are fired. -/
def State.Traced (s t : State) : Prop := ∃ events, s.Fires events t

namespace State.Traced

variable {s t u : State}

theorem of_eq (depth : t.context.stack.depth = s.context.stack.depth)
    (monitor : t.shared.monitor = s.shared.monitor) : s.Traced t :=
  ⟨[], .of_eq depth (congrArg _ monitor) (congrArg _ monitor)⟩

theorem trans (first : s.Traced t) (second : t.Traced u) : s.Traced u := by
  obtain ⟨events, fires⟩ := first
  obtain ⟨later, fires'⟩ := second
  exact ⟨events ++ later, fires.trans fires'⟩

theorem promote (s : State) (id : MethodId) (name : String) : s.Traced (s.promote id name).2 := by
  exact of_eq (by rw [s.promote_context]) (s.promote_monitor id name)

theorem motion : Motion State.Traced where
  refl _ := of_eq rfl rfl
  trans := trans
  visibility _ _ := of_eq rfl rfl
  scopes _ _ := of_eq rfl rfl
  enterLive _ _ := of_eq rfl rfl
  leaveLive _ _ := of_eq rfl rfl
  quiet quiet s :=
    of_eq (congrArg (fun around : Surroundings => around.stack.depth) (quiet.surroundings s) :)
      (quiet.monitor s)
  memory _ _ := of_eq rfl rfl
  newClosure _ _ _ _ := of_eq rfl rfl
  newMethod _ _ _ _ := of_eq rfl rfl

/-- A frame more on the way makes events deeper. -/
theorem popFrame {frame : Frame} (inside : (s.pushed (s.context.stack.add frame)).Traced t) :
    s.Traced t.popFrame := by
  obtain ⟨events, fires⟩ := inside
  have depth : t.context.stack.depth = s.context.stack.depth + 1 := fires.depth
  refine ⟨events, ?_, fires.balanced, fun event member => ?_, fires.heard⟩
  · change t.context.stack.depth - 1 = _
    omega
  · have deeper : s.context.stack.depth + 1 ≤ event.depth := fires.deeper event member
    omega

end State.Traced

/-- An event, balanced events at least as deep, and the event that closes the first. -/
def Monitor.Brackets (before : Monitor) (opening : Event) (kind : EventKind) (after : Monitor) :
    Prop :=
  ∃ inside, Balanced inside ∧ (∀ event ∈ inside, opening.depth ≤ event.depth) ∧
    before.Hears (opening :: inside ++ [{ opening with kind }]) after

theorem finalState_ensuring {α : Type} (body : Eval α) (after : State → State) (s : State) :
    finalState (ensuring body after s) = after (finalState (body s)) := by
  unfold ensuring
  cases body s <;> rfl

theorem Invocation.entry_closing (call : Invocation) (s : State) :
    (call.entry s).kind.closing = some call.exitKind := by
  simp only [entry, exitKind]
  cases call.isBuiltin <;> rfl

/-- Every evaluation fires balanced events, none of them shallower than its frames. -/
abbrev Tracing : EvalProperty := Moves State.Traced

namespace Tracing

/-- A body that is reported stands between brackets. -/
theorem brackets {α : Type} {body : Eval α} (holds : Tracing body) (call : Invocation) {s : State}
    (isActive : s.shared.monitor.isActive) :
    s.shared.monitor.Brackets (call.entry s) call.exitKind
        (finalState (Eval.traced call body s)).shared.monitor ∧
      s.Traced (finalState (Eval.traced call body s)) := by
  let opening := call.entry s
  let closing : Event := { opening with kind := call.exitKind }
  have runs : Eval.traced call body s = ensuring body (·.fire closing) (s.fire opening) := by
    simp only [Eval.traced, Bind.bind, EStateM.bind, Eval.read, isActive]
    rfl
  rw [runs, finalState_ensuring]
  obtain ⟨inside, fires⟩ := holds (s.fire opening)
  have first := (Monitor.Hears.fire s.shared.monitor opening).trans fires.heard
  have heard := first.trans (.fire _ closing)
  have balanced := Balanced.pair (call.entry_closing s) fires.balanced fires.deeper .nil
  refine ⟨⟨inside, fires.balanced, fires.deeper, heard⟩, opening :: inside ++ [closing], ?_⟩
  refine ⟨fires.depth, balanced, fun event member => ?_, heard⟩
  rw [List.mem_append, List.mem_cons, List.mem_singleton] at member
  rcases member with (rfl | member) | rfl
  · exact Nat.le_refl _
  · exact fires.deeper event member
  · exact Nat.le_refl _

theorem traced {α : Type} {body : Eval α} (call : Invocation) (holds : Tracing body) :
    Tracing (Eval.traced call body) := by
  intro s
  cases isActive : s.shared.monitor.isActive with
  | true => exact (holds.brackets call isActive).2
  | false =>
    have same : Eval.traced call body s = body s := by
      simp only [Eval.traced, Bind.bind, EStateM.bind, Eval.read, isActive]
      rfl
    rw [same]
    exact holds s

theorem withFrame {α : Type} {frame : Frame} {body : Eval α} (holds : Tracing body) :
    Tracing (Eval.withFrame frame body) := by
  intro s
  rw [Eval.withFrame_eq]
  cases push : s.context.stack.push frame with
  | error e => exact .of_eq rfl rfl
  | ok pushed =>
    obtain rfl := FrameStack.push_eq push
    rw [finalState_ensuring]
    exact (holds _).popFrame

theorem composing : Composing Tracing True := by
  have chains := State.Traced.motion.chains
  have poll : Tracing Eval.poll := chains.poll fun s _ => ⟨[], .of_eq rfl rfl rfl⟩
  have framing := chains.framing (fun _ s => .of_eq rfl rfl)
    (fun rest => chains.bind poll fun _ => rest trivial) withFrame traced
  exact chains.composing framing .promote

end Tracing

/-- The error with which so many more frames are refused, if they are. -/
def FrameStack.refusal (stack : FrameStack) (frames : Nat) : Option EvalError :=
  match stack.limit with
  | some limit =>
    if frames ≠ 0 ∧ limit < stack.depth + frames then some (.stackOverflow limit) else none
  | none => none

/-- The error with which a call is refused, if it is: for the count of its arguments first, and then
for want of room for its frames. -/
def CallConfig.refusal (config : CallConfig) (call : Invocation) (stack : FrameStack) :
    Option EvalError :=
  match if config.checksArity then call.arity.check call.argCount else .ok () with
  | .error error => some (.arityMismatch error)
  | .ok () => stack.refusal (config.frames call).length

/-- The event that opens a call, at the depth that its frames reach. -/
def CallConfig.opening (config : CallConfig) (call : Invocation) (s : State) : Event :=
  { call.entry s with depth := s.context.stack.depth + (config.frames call).length }

theorem FrameStack.refusal_add {stack : FrameStack} {frame : Frame}
    (push : stack.push frame = .ok (stack.add frame)) (frames : Nat) :
    (stack.add frame).refusal frames = stack.refusal (frames + 1) := by
  unfold FrameStack.push at push
  unfold refusal
  rw [show (stack.add frame).limit = stack.limit from rfl]
  cases bounded : stack.limit with
  | none => rfl
  | some limit =>
    simp only [bounded] at push
    have free : ¬limit ≤ stack.depth := by
      intro full
      rw [if_pos full] at push
      cases push
    have same : (frames ≠ 0 ∧ limit < (stack.add frame).depth + frames) ↔
        frames + 1 ≠ 0 ∧ limit < stack.depth + (frames + 1) := by
      change (frames ≠ 0 ∧ limit < stack.depth + 1 + frames) ↔ _
      omega
    simp only [same]

theorem FrameStack.refusal_of_push {stack : FrameStack} {frame : Frame} {e : EvalError}
    (push : stack.push frame = .error e) (frames : Nat) : stack.refusal (frames + 1) = some e := by
  obtain ⟨limit, bounded, full, rfl⟩ := push_error push
  unfold refusal
  rw [bounded]
  exact if_pos ⟨Nat.succ_ne_zero _, by omega⟩

namespace Eval

variable {α : Type} {body : Eval α} {frames : List Frame} {s : State}

theorem withFrames_refused {e : EvalError}
    (refused : s.context.stack.refusal frames.length = some e) :
    withFrames frames body s = .error (.signal (.error e)) s := by
  induction frames generalizing s with
  | nil =>
    unfold FrameStack.refusal at refused
    split at refused <;> simp at refused
  | cons frame frames ih =>
    rw [withFrames, withFrame_eq]
    cases push : s.context.stack.push frame with
    | error error =>
      have same := FrameStack.refusal_of_push push frames.length
      rw [List.length_cons, same] at refused
      cases refused
      rfl
    | ok pushed =>
      obtain rfl := FrameStack.push_eq push
      let inner : State := s.pushed (s.context.stack.add frame)
      have left : inner.context.stack.refusal frames.length = some e :=
        (FrameStack.refusal_add push _).trans refused
      have inside : withFrames frames body (s.pushed _) = _ := ih left
      simp only [ensuring, inside]
      rfl

theorem ensuring_id (body : Eval α) (s : State) : ensuring body id s = body s := by
  unfold ensuring
  cases body s <;> rfl

theorem ensuring_inside {x y : Eval α} {t : State} {inner : State → State}
    (inside : x s = ensuring y inner t) (outer : State → State) :
    ensuring x outer s = ensuring y (outer ∘ inner) t := by
  simp only [ensuring, inside]
  cases y t <;> rfl

/-- Frames that fit are all there when the body starts, and go when it ends. -/
theorem withFrames_admitted (admitted : s.context.stack.refusal frames.length = none) :
    ∃ t leave, (∀ {α : Type} (body : Eval α), withFrames frames body s = ensuring body leave t) ∧
      t.context.stack.frames = frames.reverse ++ s.context.stack.frames ∧
      t.shared = s.shared ∧ ∀ u : State, (leave u).shared = u.shared := by
  induction frames generalizing s with
  | nil => exact ⟨s, id, fun body => (ensuring_id body s).symm, rfl, rfl, fun _ => rfl⟩
  | cons frame frames ih =>
    cases push : s.context.stack.push frame with
    | error error =>
      rw [List.length_cons, FrameStack.refusal_of_push push] at admitted
      cases admitted
    | ok pushed =>
      obtain rfl := FrameStack.push_eq push
      let inner : State := s.pushed (s.context.stack.add frame)
      have left : inner.context.stack.refusal frames.length = none :=
        (FrameStack.refusal_add push _).trans admitted
      obtain ⟨t, leave, runs, stack, shared, keeps⟩ := ih left
      refine ⟨t, State.popFrame ∘ leave, fun body => ?_, ?_, shared, keeps⟩
      · rw [withFrames, withFrame_eq, push]
        exact ensuring_inside (runs body) State.popFrame
      · rw [stack, List.reverse_cons, List.append_assoc]
        rfl

theorem withNewScope_entered (scope : Option StaticId) (s : State) :
    ∃ t leave, (∀ {α : Type} (body : Eval α), withNewScope scope body s = ensuring body leave t) ∧
      t.context.stack = s.context.stack ∧ t.shared.monitor = s.shared.monitor ∧
      t.shared.library = s.shared.library ∧ ∀ u : State, (leave u).shared = u.shared := by
  cases scope with
  | none => exact ⟨s, id, fun body => (ensuring_id body s).symm, rfl, rfl, rfl, fun _ => rfl⟩
  | some scope =>
    let allocated := s.shared.memory.allocate scope []
    exact ⟨{ s with shared.memory := allocated.2, context.scopes := allocated.1 :: s.context.scopes },
      State.popScope, fun _ => rfl, rfl, rfl, rfl, fun _ => rfl⟩

/-- A refused call changes nothing. -/
theorem entering_refused {config : CallConfig} {call : Invocation} {e : EvalError}
    (refused : config.refusal call s.context.stack = some e) :
    entering config call body s = .error (.signal (.error e)) s := by
  unfold CallConfig.refusal at refused
  unfold entering
  cases checks : config.checksArity with
  | false =>
    simp only [checks] at refused
    exact withFrames_refused refused
  | true =>
    simp only [checks, if_true] at refused ⊢
    cases arity : call.arity.check call.argCount with
    | error error =>
      rw [arity] at refused
      cases refused
      rfl
    | ok done =>
      rw [arity] at refused
      exact withFrames_refused refused

theorem entering_admitted (body : Eval α) {config : CallConfig} {call : Invocation}
    (admitted : config.refusal call s.context.stack = none) :
    s.context.stack.refusal (config.frames call).length = none ∧
      entering config call body s = withFrames (config.frames call)
        (withNewScope (if config.pushesScope then call.scope else none) (traced call body)) s := by
  unfold CallConfig.refusal at admitted
  unfold entering
  cases checks : config.checksArity with
  | false =>
    simp only [checks] at admitted
    exact ⟨admitted, rfl⟩
  | true =>
    simp only [checks, if_true] at admitted ⊢
    cases arity : call.arity.check call.argCount with
    | error error =>
      rw [arity] at admitted
      cases admitted
    | ok done =>
      rw [arity] at admitted
      exact ⟨admitted, rfl⟩

end Eval

/-- A call that is not refused stands between brackets. -/
theorem Tracing.entering {α : Type} {body : Eval α} (holds : Tracing body) {config : CallConfig}
    {call : Invocation} {s : State} (admitted : config.refusal call s.context.stack = none)
    (isActive : s.shared.monitor.isActive) :
    s.shared.monitor.Brackets (config.opening call s) call.exitKind
      (finalState (Eval.entering config call body s)).shared.monitor := by
  obtain ⟨fits, runs⟩ := Eval.entering_admitted body admitted
  obtain ⟨t, popFrames, framed, frames, shared, keeps⟩ := Eval.withFrames_admitted fits
  obtain ⟨u, popScope, inScope, stack, monitor, library, keeps'⟩ :=
    Eval.withNewScope_entered (if config.pushesScope then call.scope else none) t
  rw [shared] at monitor library
  have depth : u.context.stack.depth =
      s.context.stack.depth + (config.frames call).length := by
    rw [stack, t.context.stack.depth_eq, frames, s.context.stack.depth_eq, List.length_append,
      List.length_reverse, Nat.add_comm]
  have opening : call.entry u = config.opening call s := by
    simp only [Invocation.entry, CallConfig.opening, library, depth]
  have heard : u.shared.monitor.isActive := by rwa [monitor]
  have inside := (holds.brackets call heard).1
  rw [runs, framed, finalState_ensuring, keeps, inScope, finalState_ensuring, keeps', ← opening,
    ← monitor]
  exact inside

/-- Hooks are told of the events in the order of registration, and each of those that it wants. -/
structure Monitor.Informs (before : Monitor) (events : List Event) (after : Monitor) : Prop where
  deliveries : after.deliveries.toList = before.deliveries.toList ++ before.tells events
  each : (before.hooks.map Hook.id).Nodup → ∀ hook ∈ before.hooks,
    ((before.tells events).filter (·.1 == hook.id)).map (·.2) = events.filter hook.wants

/-- The events of an evaluation are brackets, and where hooks do not come and go they are told of
exactly these. -/
def WellTraced : EvalProperty := fun _ x => ∀ s : State,
  let before := s.shared.monitor
  let after := (finalState (x s)).shared.monitor
  ∃ events, Balanced events ∧ (∀ event ∈ events, s.context.stack.depth ≤ event.depth) ∧
    before.Hears events after ∧
    (after.hooks.map Hook.id = before.hooks.map Hook.id → before.Informs events after)

theorem Tracing.wellTraced {α : Type} {x : Eval α} (holds : Tracing x) : WellTraced x := by
  intro s before after
  obtain ⟨events, fires⟩ := holds s
  refine ⟨events, fires.balanced, fires.deeper, fires.heard, fun fixed => ?_⟩
  exact ⟨fires.heard.told fixed, fun unique _ member => Monitor.tells_hook unique member events⟩

theorem WellTraced.informs {α : Type} {x : Eval α} (traced : WellTraced x) (s : State)
    (fixed : (finalState (x s)).shared.monitor.hooks.map Hook.id =
      s.shared.monitor.hooks.map Hook.id) :
    ∃ events, Balanced events ∧
      s.shared.monitor.Informs events (finalState (x s)).shared.monitor := by
  obtain ⟨events, balanced, -, -, informs⟩ := traced s
  exact ⟨events, balanced, informs fixed⟩

theorem State.promote_entry (s : State) (id : MethodId) (name : String) (call : Invocation) :
    call.entry (s.promote id name).2 = call.entry s := by
  have classes : (s.promote id name).2.shared.library.classes = s.shared.library.classes :=
    (congrArg (fun s : State => s.shared.library.classes) (s.promote_plain id name) :)
  simp only [Invocation.entry, Library.cls, classes, s.promote_context]

/-- A method is entered in a state that shows the same frames, classes and hooks. -/
theorem Tracing.invoke (fuel : Nat) (id : MethodId) (call : Call) (s : State) :
    let m := s.shared.library.method id
    ∃ (body : Eval Value) (t : State), Tracing body ∧ t.context.stack = s.context.stack ∧
      t.shared.monitor = s.shared.monitor ∧
      (m.invocation call).entry t = (m.invocation call).entry s ∧
      Engine.invoke (fuel + 1) id call s = Eval.entering m.config (m.invocation call) body t := by
  intro m
  have h := Tracing.composing
  have enough : fuel = 0 → True := fun _ => trivial
  by_cases hasBody : m.HasBody
  · obtain ⟨params, body, t, place, runs⟩ := Eval.invoke_runs fuel call hasBody
    have inside := h.bodyRun (h.answer fuel) fuel enough body
    refine ⟨Eval.methodBody (Tree.eval fuel (Eval.answer fuel)) m params call _, t,
      h.methodBody (h.answer fuel) fuel enough m params call inside, ?_⟩
    have entered := runs (Eval.answer fuel)
    rcases place with rfl | rfl
    · exact ⟨rfl, rfl, rfl, entered⟩
    · exact ⟨by rw [s.promote_context], s.promote_monitor id call.name, s.promote_entry .., entered⟩
  · obtain ⟨builtin, own⟩ : ∃ builtin, m.body = .builtin builtin := by
      simpa [Method.HasBody] using hasBody
    refine ⟨builtin.run fuel (Eval.answer fuel) call, s,
      h.steering.builtin (h.answer fuel) fuel enough builtin call, rfl, rfl, rfl, ?_⟩
    have found : Engine.invoke (fuel + 1) id call s = _ := bind_ok (x := Eval.method id) rfl
    rw [found]
    simp only [show (s.shared.library.method id).body = .builtin builtin from own]
    rfl

/-- However an evaluation ends, its events are brackets. A method that refuses a call fires nothing and
leaves the hooks alone; otherwise the call stands between brackets of its own. -/
theorem events_well_bracketed (fuel : Nat) :
    (∀ node, WellTraced (Engine.evalNode fuel node)) ∧
    (∀ receiver name args block type,
      WellTraced (Engine.dispatch fuel receiver name args block type)) ∧
    (∀ method call, WellTraced (Engine.invoke fuel method call)) ∧
    (∀ closure args, WellTraced (Engine.callClosure fuel closure args)) ∧
    (∀ closure delivery, WellTraced (Engine.yield fuel closure delivery)) ∧
    (∀ scope body, WellTraced (Engine.runToplevel fuel scope body)) ∧
    (∀ receiver name args, WellTraced (Engine.send fuel receiver name args)) ∧
    ∀ (id : MethodId) (call : Call) (s : State),
      let m := s.shared.library.method id
      let ends := Engine.invoke (fuel + 1) id call s
      let after := (finalState ends).shared.monitor
      match m.config.refusal (m.invocation call) s.context.stack with
      | some e => halted ends = some (.signal (.error e)) ∧ after = s.shared.monitor
      | none => s.shared.monitor.isActive → s.shared.monitor.Brackets
          (m.config.opening (m.invocation call) s) (m.invocation call).exitKind after := by
  have h := Tracing.composing
  have traced {α : Type} {x : Eval α} (holds : Tracing x) := holds.wellTraced
  refine ⟨fun node => traced (h.evalNode fuel node),
    fun receiver name args block type => traced (h.dispatch fuel receiver name args block type),
    fun method call => traced (h.answer fuel (.invoke method call)),
    fun closure args => traced (h.callClosure fuel closure args),
    fun closure delivery => traced (h.answer fuel (.yield closure delivery)),
    fun scope body => traced (h.runToplevel fuel scope body),
    fun receiver name args => traced (h.send fuel receiver name args), ?_⟩
  intro id call s m ends after
  obtain ⟨body, t, holds, stack, monitor, entry, entered⟩ := Tracing.invoke fuel id call s
  split
  · next e refused =>
    rw [← stack] at refused
    have left := entered.trans (Eval.entering_refused refused)
    simp only [after, ends, left]
    exact ⟨rfl, monitor⟩
  · next admitted =>
    intro isActive
    rw [← stack] at admitted
    rw [← monitor] at isActive
    have opening : m.config.opening (m.invocation call) t =
        m.config.opening (m.invocation call) s := by
      unfold CallConfig.opening
      rw [entry, stack]
    have inside := holds.entering admitted isActive
    rw [opening, monitor] at inside
    simp only [after, ends, entered]
    exact inside

/-- A method that calls itself until its frames no longer fit. The calls that fit are reported to both
hooks, and the last one, which is refused, to neither. -/
theorem events_well_bracketed_recursion :
    let steps : List Session.Step :=
      [{ command := .run (.define "again" {} {} (.bareCall "again")) [] none }]
    let session := (Session.start { depthLimit := some 3 } .lowering true
      [{ id := 0 }, { id := 0, mask := [.ret] }] 1 1).after 5 steps
    let s : State := ⟨session.shared, session.contexts.getD 0 default⟩
    let x := Engine.evalNode 6 (.bareCall "again")
    (finalState (x s)).shared.monitor.deliveries =
        #[(0, .mk .call "again" (some "Object") 2), (0, .mk .call "again" (some "Object") 3),
          (0, .mk .ret "again" (some "Object") 3), (1, .mk .ret "again" (some "Object") 3),
          (0, .mk .ret "again" (some "Object") 2), (1, .mk .ret "again" (some "Object") 2)] ∧
      ∃ events, Balanced events ∧
        s.shared.monitor.Informs events (finalState (x s)).shared.monitor := by
  intro steps session s x
  have traced : WellTraced x := (events_well_bracketed 6).1 _
  exact ⟨by decide +kernel, traced.informs s (by decide +kernel)⟩

end CallEngine
