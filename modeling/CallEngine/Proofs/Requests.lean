import CallEngine.Proofs.Containment
import CallEngine.Proofs.Identities
/-! What an evaluation asks for, and how a signal that answers a request goes through the evaluation.

A request is made if the evaluation cannot do without the answer. A run is compared with the run
that is cut off at the request: they are the same, or the other one was cut off and this one unwinds
with the signal. -/
namespace CallEngine
open Eval

open Classical in
/-- Answers as `ask` does, but for one request in one state, where there is a fault. -/
noncomputable def cutAt (ask : Responder) (request : Request) (t : State) (fault : Fault) :
    Responder := fun other s =>
  if other = request ∧ s = t then .error (.fault fault) s else ask other s

/-- In the state `s` the evaluation comes to make the request, in the state `t`. -/
def Asks {α : Type} (x : Responder → Eval α) (ask : Responder) (s : State) (request : Request)
    (t : State) : Prop :=
  ∀ fault, ∃ u, x (cutAt ask request t fault) s = .error (.fault fault) u

theorem cutAt_hit (ask : Responder) (request : Request) (t : State) (fault : Fault) :
    cutAt ask request t fault request t = .error (.fault fault) t :=
  if_pos ⟨rfl, rfl⟩

theorem cutAt_other {ask : Responder} {request other : Request} {s t : State} {fault : Fault}
    (differ : ¬(other = request ∧ s = t)) : cutAt ask request t fault other s = ask other s :=
  if_neg differ

/-- The run gets to the request, and a fault there ends it. -/
theorem Asks.of_run {α : Type} {x : Responder → Eval α} {ask : Responder} {s t : State}
    {request : Request}
    (rest : Responder → EStateM.Result Halt State Value → EStateM.Result Halt State α)
    (runs : ∀ ask, x ask s = rest ask (ask request t))
    (faults : ∀ ask fault, ∃ u, rest ask (.error (.fault fault) t) = .error (.fault fault) u) :
    Asks x ask s request t := by
  intro fault
  obtain ⟨u, cut⟩ := faults (cutAt ask request t fault) fault
  refine ⟨u, ?_⟩
  rw [runs, cutAt_hit]
  exact cut

/-- What brackets do on the way out. -/
inductive Unwound (s : State) : State → Prop where
  | refl : Unwound s s
  | popFrame {t : State} : Unwound s t → Unwound s t.popFrame
  | popScope {t : State} : Unwound s t → Unwound s t.popScope
  | leaveLive {t : State} (target : Target) : Unwound s t → Unwound s (t.leaveLive target)
  | fire {t : State} (event : Event) : event.kind = .ret ∨ event.kind = .builtinReturn →
    Unwound s t → Unwound s (t.fire event)

theorem Unwound.trans {s t u : State} (first : Unwound s t) (second : Unwound t u) :
    Unwound s u := by
  induction second with
  | refl => exact first
  | popFrame _ ih => exact ih.popFrame
  | popScope _ ih => exact ih.popScope
  | leaveLive target _ ih => exact ih.leaveLive target
  | fire event kind _ ih => exact ih.fire event kind

/-- The identities are those of before or new ones, the same literals are live, and frames are within
the same limit. -/
structure State.Resumes (s t : State) : Prop where
  shared : s.shared.Extends t.shared
  live : t.context.liveLiterals = s.context.liveLiterals
  stack : s.context.stack.FitsAs t.context.stack

theorem State.Resumes.of_shared {s t : State} (shared : t.shared = s.shared)
    (live : t.context.liveLiterals = s.context.liveLiterals)
    (stack : s.context.stack.FitsAs t.context.stack) : s.Resumes t :=
  ⟨shared ▸ .refl _, live, stack⟩

theorem State.Resumes.orderly {s t : State} (resumes : s.Resumes t) (orderly : s.Orderly) :
    t.Orderly :=
  (State.Advances.of_live resumes.shared (resumes.live ▸ List.Subset.refl _)).orderly orderly

def Steady : EvalProperty := fun _ x => Restores x ∧ Advancing x

/-- The end with a value or a signal. -/
def ending {α : Type} : Except Signal α → State → EStateM.Result Halt State α
  | .ok a, s => .ok a s
  | .error g, s => .error (.signal g) s

namespace Steady

theorem compositional : Compositional Steady := Restores.compositional.and Advancing.sessional.toCompositional

variable {α : Type} {x : Eval α} {s t : State}

theorem resumes (steady : Steady x) {e : Except Signal α} (ends : x s = ending e t) :
    s.Resumes t := by
  have restores := steady.1 s
  have advances := steady.2 s
  rw [ends] at restores advances
  cases e with
  | ok a => exact ⟨advances.shared, restores.live, restores.fits⟩
  | error g => exact ⟨advances.shared, restores.live, restores.fits⟩

theorem read (view : State → α) : Steady (Eval.read view) := ⟨.read view, State.Advances.motion.chains.read view⟩

theorem ofOutcome (outcome : Outcome) : Steady (Eval.ofOutcome outcome) :=
  ⟨.ofOutcome outcome, State.Advances.motion.ofOutcome outcome⟩

theorem control : Control Steady := compositional.control

theorem storage : Storage Steady := compositional.storage

theorem withFrame (steady : Steady x) (frame : Frame) : Steady (Eval.withFrame frame x) :=
  ⟨steady.1.withFrame, State.Advances.motion.chains.withFrame State.Advances.motion.stack steady.2⟩

end Steady

/-- A literal whose call still runs: its breaks are waited for. -/
structure State.Awaits (s : State) (target : Target) : Prop where
  given : target.serial < s.shared.nextTarget
  kind : ∀ id, (s.shared.closure id).target = target → (s.shared.closure id).kind = .normal
  live : target ∈ s.context.liveLiterals

theorem State.Awaits.resumes {s t : State} {target : Target} (awaits : s.Awaits target)
    (resumes : s.Resumes t) : t.Awaits target where
  given := Nat.lt_of_lt_of_le awaits.given resumes.shared.nextTarget
  kind id own := by
    have given := awaits.given
    rcases resumes.shared.closures id with same | new
    · rw [same] at own ⊢
      exact awaits.kind id own
    · rw [own] at new
      omega
  live := resumes.live ▸ awaits.live

/-- A signal on its way out, and the fault that cuts the other run off. -/
structure Passage where
  signal : Signal
  fault : Fault
  /-- Holds wherever something is evaluated. -/
  waits : State → Prop
  /-- Holds of what the signal leaves behind. -/
  lands : State → Prop

structure Passage.IsOpen (p : Passage) : Prop where
  resumes : ∀ {s t : State}, p.waits s → s.Resumes t → p.waits t
  enters : ∀ {s : State} (id : ClosureId), p.waits s →
    p.waits (s.enterLive (s.shared.closure id).target)
  aim : (∃ target value, p.signal = .leave target value) ∨
    ∃ target value, p.signal = .stop (some target) value ∧ ∀ s : State, p.waits s → s.Awaits target
  unwinds : ∀ {s t : State}, p.lands s → Unwound s t → p.lands t

namespace Passage

variable {p : Passage} {α β : Type}

/-- The two results are the same, or one run was cut off and the other ends with `e`. -/
def Agree (p : Passage) (e : Except Signal α) (left right : EStateM.Result Halt State α) : Prop :=
  left = right ∨
    (∃ u, right = .error (.fault p.fault) u) ∧ ∃ u, p.lands u ∧ left = ending e u

structure Tracks (p : Passage) (e : Except Signal α) (x y : Eval α) : Prop where
  steady : Steady x
  runs : ∀ s, p.waits s → p.Agree e (x s) (y s)

/-- The signal itself comes out. -/
abbrev Conveys (p : Passage) (x y : Eval α) : Prop := p.Tracks (.error p.signal) x y

namespace Agree

theorem ensuring {e : Except Signal α} {x y : Eval α} {s : State} (agree : p.Agree e (x s) (y s))
    {after : State → State} (lands : ∀ u, p.lands u → p.lands (after u)) :
    p.Agree e (Eval.ensuring x after s) (Eval.ensuring y after s) := by
  rcases agree with same | ⟨⟨v, cut⟩, u, landed, ends⟩
  · left
    simp only [Eval.ensuring, same]
  · right
    refine ⟨⟨after v, by simp only [Eval.ensuring, cut]⟩, after u, lands u landed, ?_⟩
    cases e <;> simp only [Eval.ensuring, ends, ending]

theorem whileLive (opened : p.IsOpen) {target : Target} {x y : Eval Value} {s : State}
    (agree : p.Agree (.error p.signal) (x (s.enterLive target)) (y (s.enterLive target))) :
    p.Agree (.ok (.error p.signal)) (Eval.whileLive target x s) (Eval.whileLive target y s) := by
  simp only [Eval.whileLive_eq]
  rcases agree with same | ⟨⟨v, cut⟩, u, landed, ends⟩
  · left
    rw [same]
  · right
    refine ⟨⟨v, by rw [cut]⟩, u.leaveLive target, ?_, by rw [ends]; rfl⟩
    exact opened.unwinds landed (Unwound.refl.leaveLive target)

end Agree

namespace Tracks

theorem same {e : Except Signal α} {x : Eval α} (steady : Steady x) : p.Tracks e x x :=
  ⟨steady, fun _ _ => .inl rfl⟩

variable (opened : p.IsOpen)
include opened

/-- What follows need only deal with the signal. -/
theorem andThen {x y : Eval α} {f g : α → Eval β} {e : Except Signal α} {e' : Except Signal β}
    (first : p.Tracks e x y) (rest : ∀ a, p.Tracks e' (f a) (g a))
    (ends : ∀ u, p.lands u → p.waits u → (ending e >>= f : Eval β) u = ending e' u) :
    p.Tracks e' (x >>= f) (y >>= g) := by
  refine ⟨Steady.compositional.bind first.steady fun a => (rest a).steady, fun s waits => ?_⟩
  rcases first.runs s waits with same | ⟨⟨v, cut⟩, u, landed, result⟩
  · cases result : x s with
    | ok a t =>
      rw [bind_ok result, bind_ok (same.symm.trans result)]
      exact (rest a).runs t (opened.resumes waits (first.steady.resumes (e := .ok a) result))
    | error halt t =>
      left
      rw [bind_error result, bind_error (same.symm.trans result)]
  · right
    have waits' := opened.resumes waits (first.steady.resumes result)
    refine ⟨⟨v, bind_error cut⟩, u, landed, ?_⟩
    rw [← ends u landed waits']
    simp only [Bind.bind, EStateM.bind, result]

theorem bind {x y : Eval α} {f g : α → Eval β} (first : p.Conveys x y)
    (rest : ∀ a, p.Conveys (f a) (g a)) : p.Conveys (x >>= f) (y >>= g) :=
  andThen opened first rest fun _ _ _ => rfl

theorem map {x y : Eval α} (holds : p.Conveys x y) (f : α → β) :
    p.Conveys (do return f (← x)) (do return f (← y)) :=
  bind opened holds fun _ => same (Steady.compositional.pure _)

omit opened in
theorem observe {x y : Eval Value} (holds : p.Conveys x y) :
    p.Tracks (.ok (.error p.signal)) (Eval.observe x) (Eval.observe y) := by
  refine ⟨Steady.compositional.observe holds.steady, fun s waits => ?_⟩
  rcases holds.runs s waits with same | ⟨⟨v, cut⟩, u, landed, ends⟩
  · left
    simp only [Eval.observe, same]
  · right
    exact ⟨⟨v, by simp only [Eval.observe, cut]⟩, u, landed, by simp only [Eval.observe, ends, ending]⟩

/-- A handler that passes the signal on, or makes `e` of it. -/
theorem handle {x y : Eval Value} {k k' : Outcome → Eval β} {e : Except Signal β}
    (holds : p.Conveys x y) (rest : ∀ outcome, p.Tracks e (k outcome) (k' outcome))
    (ends : ∀ u, p.lands u → p.waits u → k (.error p.signal) u = ending e u) :
    p.Tracks e (Eval.observe x >>= k) (Eval.observe y >>= k') :=
  andThen opened (observe holds) rest ends

/-- What comes first asks for nothing. -/
theorem after {x : Eval α} {f g : α → Eval β} {e : Except Signal β} (steady : Steady x)
    (rest : ∀ a, p.Tracks e (f a) (g a)) : p.Tracks e (x >>= f) (x >>= g) := by
  refine ⟨Steady.compositional.bind steady fun a => (rest a).steady, fun s waits => ?_⟩
  cases result : x s with
  | ok a t =>
    rw [bind_ok result, bind_ok result]
    exact (rest a).runs t (opened.resumes waits (steady.resumes (e := .ok a) result))
  | error halt t =>
    left
    rw [bind_error result, bind_error result]

theorem withFrame {e : Except Signal α} {x y : Eval α} (holds : p.Tracks e x y) (frame : Frame) :
    p.Tracks e (Eval.withFrame frame x) (Eval.withFrame frame y) := by
  refine ⟨holds.steady.withFrame frame, fun s waits => ?_⟩
  rw [Eval.withFrame_eq, Eval.withFrame_eq]
  cases push : s.context.stack.push frame with
  | error e => exact .inl rfl
  | ok stack =>
    obtain ⟨limit, within⟩ := FrameStack.push_fits push
    have fits : s.context.stack.FitsAs stack := ⟨limit, fun _ => within⟩
    have inside := holds.runs (s.pushed stack) (opened.resumes waits (.of_shared rfl rfl fits))
    exact inside.ensuring fun u landed => opened.unwinds landed Unwound.refl.popFrame

theorem withFrames {e : Except Signal α} {x y : Eval α} (holds : p.Tracks e x y)
    (frames : List Frame) : p.Tracks e (Eval.withFrames frames x) (Eval.withFrames frames y) := by
  induction frames with
  | nil => exact holds
  | cons frame frames ih => exact withFrame opened ih frame

theorem withScope {e : Except Signal α} {x y : Eval α} (holds : p.Tracks e x y) (env : Env) :
    p.Tracks e (Eval.withScope env x) (Eval.withScope env y) := by
  refine ⟨Steady.compositional.withScope env holds.steady, fun s waits => ?_⟩
  have inside := holds.runs { s with context.scopes := env :: s.context.scopes }
    (opened.resumes waits (.of_shared rfl rfl (.refl _)))
  exact inside.ensuring fun u landed => opened.unwinds landed Unwound.refl.popScope

theorem withNewScope {e : Except Signal α} {x y : Eval α} (holds : p.Tracks e x y)
    (scope : Option StaticId) :
    p.Tracks e (Eval.withNewScope scope x) (Eval.withNewScope scope y) := by
  cases scope with
  | none => exact holds
  | some scope =>
    exact after opened (Steady.storage.enterScope scope []) (withScope opened holds)

theorem traced {e : Except Signal α} {x y : Eval α} (holds : p.Tracks e x y) (call : Invocation) :
    p.Tracks e (Eval.traced call x) (Eval.traced call y) := by
  refine ⟨Steady.compositional.traced call holds.steady, fun s waits => ?_⟩
  cases active : s.shared.monitor.isActive with
  | false =>
    have left (z : Eval α) : Eval.traced call z s = z s := by
      simp only [Eval.traced, Bind.bind, EStateM.bind, Eval.read, active]
      rfl
    rw [left, left]
    exact holds.runs s waits
  | true =>
    have left (z : Eval α) : Eval.traced call z s = Eval.ensuring z
        (·.fire { call.entry s with kind := call.exitKind }) (s.fire (call.entry s)) := by
      simp only [Eval.traced, Bind.bind, EStateM.bind, Eval.read, active]
      rfl
    rw [left, left]
    have inside := holds.runs (s.fire (call.entry s))
      (opened.resumes waits ⟨.of_eq rfl rfl rfl, rfl, .refl _⟩)
    refine inside.ensuring fun u landed => opened.unwinds landed (Unwound.refl.fire _ ?_)
    unfold Invocation.exitKind
    cases call.isBuiltin <;> simp

theorem entering {e : Except Signal α} {x y : Eval α} (holds : p.Tracks e x y)
    (config : CallConfig) (call : Invocation) :
    p.Tracks e (Eval.entering config call x) (Eval.entering config call y) := by
  have inside := withFrames opened (withNewScope opened (traced opened holds call)
    (if config.pushesScope then call.scope else none)) (config.frames call)
  unfold Eval.entering
  dsimp only
  split
  · exact after opened (Steady.compositional.checkArity _ _) fun _ => inside
  · exact inside

end Tracks

end Passage

end CallEngine
