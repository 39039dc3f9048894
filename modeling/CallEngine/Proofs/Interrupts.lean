import CallEngine.Proofs.Postconditions
import CallEngine.Proofs.Promotion
/-! Requests to stop are noticed once. The poll that notices one takes it back and fails, nothing
rescues the error, and whatever else an evaluation ends with, the request still stands. -/
namespace CallEngine
open Eval

namespace Monitor

/-- How often the hook was told of an event. -/
def told (monitor : Monitor) (id : Nat) : Nat := monitor.deliveries.countP (·.1 == id)

/-- In between, some hook is told of the event at which it asks the context to stop. -/
def AsksToStop (before after : Monitor) (context : ContextId) : Prop :=
  ∃ hook ∈ before.hooks, hook.context = context ∧ ∃ count, hook.interruptAt = some count ∧
    hook.seen < count ∧ count + before.told hook.id ≤ hook.seen + after.told hook.id

/-- The hooks are hooks of before, and each has counted at most the events that it was told of. -/
structure Follows (before after : Monitor) : Prop where
  told : ∀ id, before.told id ≤ after.told id
  hooks : ∀ hook ∈ after.hooks, ∃ own ∈ before.hooks, own.id = hook.id ∧
    own.context = hook.context ∧ own.interruptAt = hook.interruptAt ∧ own.seen ≤ hook.seen ∧
      hook.seen + before.told hook.id ≤ own.seen + after.told hook.id

namespace Follows

variable {a b c : Monitor}

theorem of_eq (hooks : b.hooks = a.hooks) (deliveries : b.deliveries = a.deliveries) :
    a.Follows b := by
  have told (id : Nat) : b.told id = a.told id := by simp only [Monitor.told, deliveries]
  refine ⟨fun id => Nat.le_of_eq (told id).symm, fun hook member => ?_⟩
  exact ⟨hook, hooks ▸ member, rfl, rfl, rfl, Nat.le_refl _, Nat.le_of_eq (by rw [told])⟩

theorem trans (first : a.Follows b) (second : b.Follows c) : a.Follows c where
  told id := Nat.le_trans (first.told id) (second.told id)
  hooks hook member := by
    obtain ⟨own, member, id, context, interruptAt, seen, counted⟩ := second.hooks hook member
    obtain ⟨first, member, id', context', interruptAt', seen', counted'⟩ := first.hooks own member
    rw [id] at counted'
    exact ⟨first, member, id'.trans id, context'.trans context, interruptAt'.trans interruptAt,
      Nat.le_trans seen' seen, by omega⟩

end Follows

namespace AsksToStop

variable {a b c : Monitor} {context : ContextId}

theorem extend (asks : a.AsksToStop b context) (second : b.Follows c) : a.AsksToStop c context := by
  obtain ⟨hook, member, own, count, interruptAt, seen, reached⟩ := asks
  have told := second.told hook.id
  exact ⟨hook, member, own, count, interruptAt, seen, by omega⟩

theorem precede (asks : b.AsksToStop c context) (first : a.Follows b) : a.AsksToStop c context := by
  obtain ⟨hook, member, own, count, interruptAt, seen, reached⟩ := asks
  obtain ⟨hook', member', id, context', interruptAt', seen', counted⟩ := first.hooks hook member
  refine ⟨hook', member', context'.trans own, count, interruptAt'.trans interruptAt, ?_, ?_⟩
  · exact Nat.lt_of_le_of_lt seen' seen
  · rw [id]
    omega

end AsksToStop

theorem isPending_interrupt (monitor : Monitor) (asked context : ContextId) :
    (monitor.interrupt asked).isPending context ↔
      monitor.isPending context ∨ asked = context := by
  unfold interrupt isPending
  split
  · next pending =>
    refine ⟨.inl, fun either => either.elim id ?_⟩
    rintro rfl
    exact pending
  · simp only [List.contains_cons, Bool.or_eq_true, beq_iff_eq]
    exact or_comm.trans (or_congr_right eq_comm)

/-- Hooks that ask contexts to stop do no more than that. -/
theorem interrupts (asking : List Hook) (monitor : Monitor) :
    let asked := asking.foldl (fun monitor hook => monitor.interrupt hook.context) monitor
    asked.hooks = monitor.hooks ∧ asked.deliveries = monitor.deliveries ∧
      ∀ context, asked.isPending context ↔
        monitor.isPending context ∨ ∃ hook ∈ asking, hook.context = context := by
  induction asking generalizing monitor with
  | nil => simp
  | cons hook asking ih =>
    obtain ⟨hooks, deliveries, pending⟩ := ih (monitor.interrupt hook.context)
    have kept : (monitor.interrupt hook.context).hooks = monitor.hooks ∧
        (monitor.interrupt hook.context).deliveries = monitor.deliveries := by
      unfold interrupt
      split <;> exact ⟨rfl, rfl⟩
    refine ⟨hooks.trans kept.1, deliveries.trans kept.2, fun context => ?_⟩
    rw [List.foldl_cons, pending, isPending_interrupt]
    simp [or_assoc]

variable (monitor : Monitor) (event : Event)

theorem fire_hooks : (monitor.fire event).hooks = monitor.hooks.filterMap (·.after event) :=
  (interrupts ..).1

/-- The hooks that want the event are told of it in the order of registration. -/
theorem fire_deliveries : (monitor.fire event).deliveries.toList =
    monitor.deliveries.toList ++
      (monitor.hooks.filter (·.wants event)).map fun hook => (hook.id, event) := by
  rw [show (monitor.fire event).deliveries = _ from (interrupts ..).2.1]
  simp

theorem fire_told (id : Nat) : (monitor.fire event).told id =
    monitor.told id + (monitor.hooks.filter (·.wants event)).countP (·.id == id) := by
  unfold told
  rw [← Array.countP_toList, ← Array.countP_toList, fire_deliveries, List.countP_append,
    List.countP_map]
  rfl

theorem fire_isPending (context : ContextId) : (monitor.fire event).isPending context ↔
    monitor.isPending context ∨
      ∃ hook ∈ monitor.hooks, hook.asks ∧ hook.wants event ∧ hook.context = context := by
  refine ((interrupts ..).2.2 context).trans (or_congr .rfl ?_)
  simp [and_assoc]

variable {monitor event}

/-- A hook that wants an event is told of it. -/
theorem told_lt_fire {hook : Hook} (member : hook ∈ monitor.hooks) (wants : hook.wants event) :
    monitor.told hook.id < (monitor.fire event).told hook.id := by
  rw [fire_told]
  have positive : 0 < (monitor.hooks.filter (·.wants event)).countP (·.id == hook.id) :=
    List.countP_pos_iff.2 ⟨hook, List.mem_filter.2 ⟨member, wants⟩, beq_self_eq_true _⟩
  omega

theorem Follows.fire (monitor : Monitor) (event : Event) : monitor.Follows (monitor.fire event) := by
  have told (id : Nat) : monitor.told id ≤ (monitor.fire event).told id :=
    fire_told monitor event id ▸ Nat.le_add_right ..
  refine ⟨told, fun hook member => ?_⟩
  rw [fire_hooks] at member
  obtain ⟨own, member', stays⟩ := List.mem_filterMap.1 member
  unfold Hook.after at stays
  split at stays
  · next wants =>
    split at stays <;> cases stays
    have more := told_lt_fire member' wants
    exact ⟨own, member', rfl, rfl, rfl, Nat.le_succ _, by dsimp only; omega⟩
  · cases stays
    exact ⟨hook, member', rfl, rfl, rfl, Nat.le_refl _, Nat.add_le_add_left (told _) _⟩

/-- Only a hook that asks makes an event stop a context. -/
theorem fire_isPending_eq {context : ContextId}
    (silent : ¬monitor.AsksToStop (monitor.fire event) context) :
    (monitor.fire event).isPending context = monitor.isPending context := by
  refine Bool.eq_iff_iff.2 ((fire_isPending monitor event context).trans ⟨?_, .inl⟩)
  rintro (pending | ⟨hook, member, asks, wants, own⟩)
  · exact pending
  · refine absurd ⟨hook, member, own, hook.seen + 1, ?_, Nat.lt_succ_self _, ?_⟩ silent
    · simpa [Hook.asks] using asks
    · have more := told_lt_fire member wants
      omega

end Monitor

def State.isPending (s : State) : Bool := s.shared.monitor.isPending s.context.id

theorem Eval.poll_pending {s : State} (pending : s.isPending = true) :
    poll s = .error (.signal (.error .interrupted))
      { s with shared.monitor := s.shared.monitor.settle s.context.id } := by
  have pending : s.shared.monitor.isPending s.context.id = true := pending
  simp only [poll, Bind.bind, EStateM.bind, Eval.read, pending]
  rfl

/-- Some hook asks the context to stop on the way from `s` to `t`. -/
def State.AsksToStop (s t : State) : Prop :=
  s.shared.monitor.AsksToStop t.shared.monitor s.context.id

/-- A request to stop was noticed and is gone, or it stands as before. -/
structure Delivered (s t : State) (noticed : Prop) : Prop where
  context : t.context.id = s.context.id
  follows : s.shared.monitor.Follows t.shared.monitor
  taken : ¬s.AsksToStop t → noticed → s.isPending = true ∧ t.isPending = false
  kept : ¬s.AsksToStop t → ¬noticed → t.isPending = s.isPending

namespace Delivered

variable {s t u : State} {noticed : Prop}

theorem of_eq (context : t.context.id = s.context.id)
    (monitor : t.shared.monitor = s.shared.monitor) : Delivered s t False where
  context := context
  follows := .of_eq (congrArg _ monitor) (congrArg _ monitor)
  taken _ := False.elim
  kept _ _ := by simp only [State.isPending, context, monitor]

theorem refl (s : State) : Delivered s s False := of_eq rfl rfl

theorem fire (s : State) (event : Event) : Delivered s (s.fire event) False where
  context := rfl
  follows := .fire s.shared.monitor event
  taken _ := False.elim
  kept silent _ := Monitor.fire_isPending_eq silent

theorem settle (s : State) (pending : s.isPending = true) : Delivered s
    { s with shared.monitor := s.shared.monitor.settle s.context.id } True where
  context := rfl
  follows := .of_eq rfl rfl
  taken _ _ := ⟨pending, by simp [State.isPending, Monitor.isPending, Monitor.settle]⟩
  kept _ absent := absurd trivial absent

theorem iff {noticed' : Prop} (same : noticed' ↔ noticed) (delivered : Delivered s t noticed) :
    Delivered s t noticed' :=
  propext same ▸ delivered

theorem unnoticed (absent : ¬noticed) (delivered : Delivered s t noticed) : Delivered s t False :=
  delivered.iff (iff_false_intro absent).symm

/-- At most one of the two parts notices a request. -/
theorem trans {first second : Prop} (before : Delivered s t first) (after : Delivered t u second)
    (once : ¬first ∨ ¬second) : Delivered s u (first ∨ second) := by
  have silent (quiet : ¬s.AsksToStop u) : ¬s.AsksToStop t ∧ ¬t.AsksToStop u := by
    refine ⟨fun asks => quiet (asks.extend after.follows), fun asks => quiet ?_⟩
    unfold State.AsksToStop at asks
    rw [before.context] at asks
    exact asks.precede before.follows
  refine ⟨after.context.trans before.context, before.follows.trans after.follows, ?_, ?_⟩
  · intro quiet noticed
    obtain ⟨quiet, quiet'⟩ := silent quiet
    rcases noticed with noticed | noticed
    · obtain ⟨pending, gone⟩ := before.taken quiet noticed
      exact ⟨pending, (after.kept quiet' (once.resolve_left (not_not_intro noticed))).trans gone⟩
    · obtain ⟨pending, gone⟩ := after.taken quiet' noticed
      exact ⟨(before.kept quiet (once.resolve_right (not_not_intro noticed))) ▸ pending, gone⟩
  · intro quiet absent
    obtain ⟨quiet, quiet'⟩ := silent quiet
    exact (after.kept quiet' (absent ∘ .inr)).trans (before.kept quiet (absent ∘ .inl))

/-- What happens first notices nothing. -/
theorem after (second : Delivered t u noticed) (first : Delivered s t False) :
    Delivered s u noticed :=
  (first.trans second (.inl id)).iff (false_or _).symm.to_iff

/-- What happens last notices nothing. -/
theorem andThen (first : Delivered s t noticed) (second : Delivered t u False) :
    Delivered s u noticed :=
  (first.trans second (.inr id)).iff (or_false _).symm.to_iff

end Delivered

/-- An error that is a request to stop. -/
abbrev Interrupted (halt : Option Halt) : Prop := Fails (· = .interrupted) halt

theorem Halt.IsOrdinary.not_interrupted {halt : Halt} (ordinary : halt.IsOrdinary) :
    ¬Interrupted (some halt) := by
  cases halt with
  | signal g =>
    cases g with
    | error e => exact ordinary
    | _ => exact id
  | _ => exact id

namespace Delivered

theorem promote (s : State) (id : MethodId) (name : String) :
    Delivered s (s.promote id name).2 False := by
  have plain := s.promote_plain id name
  exact .of_eq (congrArg (fun s : State => s.context.id) plain :) (s.promote_monitor id name)

theorem motion : Motion fun s t => Delivered s t False where
  refl := refl
  trans first second := second.after first
  visibility _ _ := .of_eq rfl rfl
  scopes _ _ := .of_eq rfl rfl
  enterLive _ _ := .of_eq rfl rfl
  leaveLive _ _ := .of_eq rfl rfl
  quiet quiet s := .of_eq (congrArg Surroundings.id (quiet.surroundings s) :)
    (congrArg Surroundings.monitor (quiet.surroundings s) :)
  memory _ _ := .of_eq rfl rfl
  newClosure _ _ _ _ := .of_eq rfl rfl
  newMethod _ _ _ _ := .of_eq rfl rfl

theorem chains : Post.Chains fun s halt t => Delivered s t (Interrupted halt) where
  motion := motion
  next first second := second.after first
  handle isOpen first second := by
    refine second.after (first.unnoticed (isOpen.not_fails ?_))
    rintro kind rfl
    rfl
  lastly := andThen
  located _ := id
  halts s _ ordinary := (refl s).iff (iff_false_intro ordinary.not_interrupted)

theorem composing : Composing (Meets fun s halt t => Delivered s t (Interrupted halt)) True := by
  have poll := chains.poll fun s pending => (settle s pending).iff (iff_true_intro rfl)
  have framing := chains.framing (fun _ s => refl s)
    (fun rest => chains.bind poll fun _ => rest trivial)
    (chains.withFrame fun _ _ => .of_eq rfl rfl) (chains.traced fire)
  exact chains.composing framing promote

end Delivered

/-- Unless the context is asked to stop meanwhile, an evaluation ends with a request to stop exactly if
one was pending and no longer is, and with anything else it leaves the request as it was. -/
def DeliversOnce : EvalProperty := fun _ x => ∀ s : State,
  let after := (finalState (x s)).shared.monitor
  ¬s.shared.monitor.AsksToStop after s.context.id →
    (Interrupted (halted (x s)) ↔ s.isPending ∧ ¬after.isPending s.context.id) ∧
      (¬Interrupted (halted (x s)) → after.isPending s.context.id = s.isPending)

theorem DeliversOnce.of_meets {α : Type} {x : Eval α}
    (holds : Meets (fun s halt t => Delivered s t (Interrupted halt)) x) : DeliversOnce x := by
  intro s after silent
  obtain ⟨context, -, taken, kept⟩ := holds s
  simp only [State.isPending, context] at taken kept
  have stands := kept silent
  refine ⟨⟨fun noticed => ?_, fun ⟨pending, gone⟩ => ?_⟩, stands⟩
  · obtain ⟨pending, gone⟩ := taken silent noticed
    exact ⟨pending, by simp [after, gone]⟩
  · exact Classical.byContradiction fun unnoticed => gone ((stands unnoticed).trans pending)

/-- However deep the poll that notices a request, and whatever rescue clauses, closures, methods and
built-in methods are around it. -/
theorem interrupts_delivered_once (fuel : Nat) :
    (∀ node, DeliversOnce (Engine.evalNode fuel node)) ∧
    (∀ receiver name args block type,
      DeliversOnce (Engine.dispatch fuel receiver name args block type)) ∧
    (∀ method call, DeliversOnce (Engine.invoke fuel method call)) ∧
    (∀ closure args, DeliversOnce (Engine.callClosure fuel closure args)) ∧
    (∀ closure delivery, DeliversOnce (Engine.yield fuel closure delivery)) ∧
    (∀ scope body, DeliversOnce (Engine.runToplevel fuel scope body)) ∧
    ∀ receiver name args, DeliversOnce (Engine.send fuel receiver name args) := by
  have h := Delivered.composing
  have once {α : Type} {x : Eval α} := @DeliversOnce.of_meets α x
  exact ⟨fun node => once (h.evalNode fuel node),
    fun receiver name args block type => once (h.dispatch fuel receiver name args block type),
    fun method call => once (h.answer fuel (.invoke method call)),
    fun closure args => once (h.callClosure fuel closure args),
    fun closure delivery => once (h.answer fuel (.yield closure delivery)),
    fun scope body => once (h.runToplevel fuel scope body),
    fun receiver name args => once (h.send fuel receiver name args)⟩

/-- The loop polls before its first test, and the rescue clause around it does not see the error. -/
theorem interrupts_delivered_once_rescue :
    let s : State := ⟨{ monitor := { pending := [0] } },
      { id := 0, main := ⟨0, 0⟩, scopes := [[]], stack := .ofRoot { self := .nil } none }⟩
    let node : Node := .rescue (.loop (.bool true) .nil) (.int 2)
    let ends := Engine.evalNode 3 node s
    ends = .error (.signal (.error .interrupted)) { s with shared.monitor := {} } ∧
      (Interrupted (halted ends) ↔ s.isPending ∧ ¬(finalState ends).shared.monitor.isPending 0) := by
  intro s node ends
  exact ⟨rfl, ((interrupts_delivered_once 3).1 node s nofun).1⟩

end CallEngine
