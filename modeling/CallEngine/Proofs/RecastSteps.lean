import CallEngine.Proofs.Recasting
import Mathlib.Data.List.Forall2
/-! What bodies do beside a class's own copy of a method: brackets, handlers, definitions, closures and
calls. -/
namespace CallEngine
open Eval

/-- Without what the hooks were told. -/
def Monitor.silent (monitor : Monitor) : Monitor := { monitor with deliveries := #[] }

theorem Monitor.silent_interrupts (asking : List Hook) (monitor : Monitor) :
    (asking.foldl (fun monitor hook => monitor.interrupt hook.context) monitor).silent =
      asking.foldl (fun monitor hook => monitor.interrupt hook.context) monitor.silent := by
  induction asking generalizing monitor with
  | nil => rfl
  | cons hook asking ih =>
    have silent : (monitor.interrupt hook.context).silent = monitor.silent.interrupt hook.context := by
      unfold Monitor.interrupt
      split
      · next pending => exact (if_pos pending).symm
      · next idle => exact (if_neg idle).symm
    rw [List.foldl_cons, List.foldl_cons, ih, silent]

/-- Hooks look at the kind of an event only. -/
theorem Monitor.silent_fire {monitor monitor' : Monitor} {event event' : Event}
    (same : monitor.silent = monitor'.silent) (kind : event.kind = event'.kind) :
    (monitor.fire event).silent = (monitor'.fire event').silent := by
  have hooks : monitor.hooks = monitor'.hooks := (congrArg Monitor.hooks same :)
  have wants (hook : Hook) : hook.wants event = hook.wants event' := by
    simp only [Hook.wants, kind]
  have after (hook : Hook) : hook.after event = hook.after event' := by
    simp only [Hook.after, wants]
  have nextId : monitor.nextId = monitor'.nextId := (congrArg Monitor.nextId same :)
  have pending : monitor.pending = monitor'.pending := (congrArg Monitor.pending same :)
  unfold Monitor.fire
  simp only [Monitor.silent_interrupts, hooks, wants, after, nextId, pending]
  rfl

theorem Eval.traced_eq {α : Type} (call : Invocation) (x : Eval α) (s : State) :
    traced call x s = if s.shared.monitor.isActive then
      Eval.ensuring x (·.fire { call.entry s with kind := call.exitKind }) (s.fire (call.entry s))
      else x s := by
  simp only [traced, Bind.bind, EStateM.bind, Eval.read]
  cases s.shared.monitor.isActive <;> rfl

/-- The frame that the body runs in, unless it runs in its caller's. -/
def Invocation.frame (call : Invocation) : Frame :=
  { self := call.self, cls := call.owner, name := some call.name, block := call.block,
    jumpTarget := call.target, activation := call.target }

theorem CallConfig.frames_eq (config : CallConfig) (call : Invocation) :
    config.frames call = match config, call.owner with
      | .inPlace, _ => []
      | .moduleFunction, some owner => [{ self := .cls owner, cls := some owner }, call.frame]
      | _, _ => [call.frame] :=
  rfl

namespace Recasting

variable (c : Recasting)

/-- Frames below the innermost one count for their names and for the returns that they catch. -/
structure Alike (frame frame' : Frame) : Prop where
  name : frame.name = frame'.name
  activation : frame.activation = frame'.activation.map c.target

/-- What is tied of two states whatever the innermost frames are. -/
structure Shares (s t : State) : Prop where
  library : c.Libraries s.shared.library t.shared.library
  left : s.shared.Faithful
  right : t.shared.Faithful
  memory : s.shared.memory = t.shared.memory
  nextObject : s.shared.nextObject = t.shared.nextObject
  nextTarget : ⟨s.shared.nextTarget⟩ = c.target ⟨t.shared.nextTarget⟩
  given : c.copyTarget.serial < t.shared.nextTarget
  monitor : s.shared.monitor.silent = t.shared.monitor.silent
  size : s.shared.closures.size = t.shared.closures.size
  closures (id : ClosureId) : c.Closures (s.shared.closure id) (t.shared.closure id)
  sound (id : ClosureId) : c.Sound (t.shared.closure id)
  id : s.context.id = t.context.id
  scopes : s.context.scopes = t.context.scopes
  lastCall : s.context.lastCall = t.context.lastCall
  globals : s.context.globals = t.context.globals
  main : s.context.main = t.context.main
  live : s.context.liveLiterals = t.context.liveLiterals.map c.target
  limit : s.context.stack.limit = t.context.stack.limit
  alike : List.Forall₂ c.Alike s.context.stack.frames t.context.stack.frames

/-- The frames are these. -/
structure Rests (resting : List Frame × List Frame) (s t : State) : Prop extends Shares c s t where
  frames : s.context.stack.frames = resting.1
  frames' : t.context.stack.frames = resting.2

/-- The frames below the innermost ones are these. -/
structure Around (below : List Frame × List Frame) (s t : State) : Prop extends Shares c s t where
  outer : s.context.stack.frames.tail = below.1
  outer' : t.context.stack.frames.tail = below.2

/-- Also the innermost frames are tied, so that bodies can run there. -/
structure States (outer : List Frame × List Frame) (s t : State) : Prop extends
    Around c outer s t where
  innermost : ∀ frame ∈ s.context.stack.frames.head?, ∀ frame' ∈ t.context.stack.frames.head?,
    c.Frames frame frame'

/-- The ends of two runs. The second one may have been stopped. -/
inductive Ends (Q : State → State → Prop) {α β : Type} (R : α → β → Prop) :
    EStateM.Result Halt State α → EStateM.Result Halt State β → Prop
  | ok {a : α} {b : β} {s t : State} : R a b → Q s t → Ends Q R (.ok a s) (.ok b t)
  | error (halt : Halt) {s t : State} : Q s t →
    Ends Q R (.error (halt.renamed c.target) s) (.error halt t)
  | barred {left : EStateM.Result Halt State α} (t : State) :
    Ends Q R left (.error (.fault c.precaution.fault) t)

/-- Two runs from tied states end alike, above the same frames. -/
def Ties {α β : Type} (R : α → β → Prop) (x : Eval α) (y : Eval β) : Prop :=
  ∀ outer s t, c.States outer s t → c.Ends (c.States outer) R (x s) (y t)

/-- So they do whatever the innermost frames are, which they leave as they are. -/
def Framed {α β : Type} (R : α → β → Prop) (x : Eval α) (y : Eval β) : Prop :=
  ∀ s t, c.Shares s t →
    c.Ends (c.Rests (s.context.stack.frames, t.context.stack.frames)) R (x s) (y t)

variable {c} {α β γ δ : Type} {R : α → β → Prop} {S : γ → δ → Prop}

namespace Ends

variable {Q Q' : State → State → Prop} {x : Eval α} {y : Eval β} {f : α → Eval γ} {g : β → Eval δ}
  {s t : State}

theorem mono {left : EStateM.Result Halt State α} {right : EStateM.Result Halt State β}
    (ends : c.Ends Q R left right) (weaker : ∀ s t, Q s t → Q' s t) : c.Ends Q' R left right := by
  cases ends with
  | ok related tied => exact .ok related (weaker _ _ tied)
  | error halt tied => exact .error halt (weaker _ _ tied)
  | barred t => exact .barred t

theorem bind (first : c.Ends Q R (x s) (y t))
    (rest : ∀ a b s t, R a b → Q s t → c.Ends Q S (f a s) (g b t)) :
    c.Ends Q S ((x >>= f) s) ((y >>= g) t) := by
  simp only [Bind.bind, EStateM.bind]
  generalize x s = left at first
  generalize y t = right at first
  cases first with
  | ok related tied => exact rest _ _ _ _ related tied
  | error halt tied => exact .error halt tied
  | barred t => exact .barred t

/-- The end of a body with another update after it. -/
theorem ensuring {after after' : State → State} (ends : c.Ends Q R (x s) (y t))
    (undoes : ∀ u v, Q u v → Q' (after u) (after' v)) :
    c.Ends Q' R (Eval.ensuring x after s) (Eval.ensuring y after' t) := by
  unfold Eval.ensuring
  generalize x s = left at ends
  generalize y t = right at ends
  cases ends with
  | ok related tied => exact .ok related (undoes _ _ tied)
  | error halt tied => exact .error halt (undoes _ _ tied)
  | barred t => exact .barred _

end Ends

theorem States.remember {outer : List Frame × List Frame} {s t : State} (states : c.States outer s t)
    (memory : Memory) :
    c.States outer { s with shared.memory := memory } { t with shared.memory := memory } :=
  { states with
    memory := rfl
    left := ⟨states.left.backend, states.left.methods⟩
    right := ⟨states.right.backend, states.right.methods⟩ }

namespace Ties

variable {x : Eval α} {y : Eval β} {f : α → Eval γ} {g : β → Eval δ}

theorem bindOn (first : c.Ties R x y) (rest : ∀ a b, R a b → c.Ties S (f a) (g b)) :
    c.Ties S (x >>= f) (y >>= g) := fun outer s t states =>
  (first outer s t states).bind fun a b s t related => rest a b related outer s t

theorem bind {x y : Eval α} {f : α → Eval γ} {g : α → Eval δ} (first : c.Ties Eq x y)
    (rest : ∀ a, c.Ties S (f a) (g a)) : c.Ties S (x >>= f) (y >>= g) :=
  first.bindOn fun a _ same => same ▸ rest a

theorem pure {a : α} {b : β} (related : R a b) : c.Ties R (Pure.pure a) (Pure.pure b) :=
  fun _ _ _ states => .ok related states

theorem map {x y : Eval α} (holds : c.Ties Eq x y) (f : α → γ) :
    c.Ties Eq (do return f (← x)) (do return f (← y)) :=
  holds.bind fun _ => pure rfl

theorem halt (halt : Halt) :
    c.Ties R (throw (halt.renamed c.target) : Eval α) (throw halt : Eval β) :=
  fun _ _ _ states => .error halt states

theorem raise (e : EvalError) : c.Ties R (Eval.raise e : Eval α) (Eval.raise e : Eval β) :=
  halt (.signal (.error e))

theorem read {view : State → α} {view' : State → β}
    (same : ∀ {outer s t}, c.States outer s t → R (view s) (view' t)) :
    c.Ties R (Eval.read view) (Eval.read view') :=
  fun _ _ _ states => .ok (same states) states

theorem raiseWith {error : State → EvalError}
    (same : ∀ {outer s t}, c.States outer s t → error s = error t) :
    c.Ties R (Eval.raiseWith error : Eval α) (Eval.raiseWith error : Eval β) :=
  (read (R := Eq) same).bind raise

theorem update {f : State → α × State} {f' : State → β × State}
    (same : ∀ {outer s t}, c.States outer s t →
      R (f s).1 (f' t).1 ∧ c.States outer (f s).2 (f' t).2) :
    c.Ties R (modifyGet f) (modifyGet f') :=
  fun _ _ _ states => .ok (same states).1 (same states).2

theorem ite {q q' : Prop} [Decidable q] [Decidable q'] {x x' : Eval α} {y y' : Eval β}
    (same : q' ↔ q) (yes : c.Ties R x y) (no : c.Ties R x' y') :
    c.Ties R (if q then x else x') (if q' then y else y') := by
  by_cases holds : q
  · rw [if_pos holds, if_pos (same.2 holds)]
    exact yes
  · rw [if_neg holds, if_neg (mt same.1 holds)]
    exact no

theorem observe {x y : Eval Value} (holds : c.Ties Eq x y) :
    c.Ties (fun outcome outcome' => outcome = outcome'.renamed c.target) (Eval.observe x)
      (Eval.observe y) := by
  intro outer s t states
  have ends := holds outer s t states
  unfold Eval.observe
  generalize x s = left at ends
  generalize y t = right at ends
  cases ends with
  | ok same states => exact .ok (congrArg Except.ok same) states
  | error halt states =>
    cases halt with
    | signal g => exact .ok rfl states
    | fault fault => exact .error (.fault fault) states
    | exhausted => exact .error .exhausted states
  | barred t => exact .barred t

theorem ofOutcome (outcome : Outcome) :
    c.Ties Eq (Eval.ofOutcome (outcome.renamed c.target)) (Eval.ofOutcome outcome) := by
  cases outcome with
  | ok value => exact pure rfl
  | error g => exact halt (.signal g)

/-- A handler that makes the same of outcomes that are the same but for what returns are aimed at. -/
theorem handle {body body' : Eval Value} {k : Outcome → Eval γ} {k' : Outcome → Eval δ}
    (runs : c.Ties Eq body body')
    (handles : ∀ outcome, c.Ties S (k (outcome.renamed c.target)) (k' outcome)) :
    c.Ties S (Eval.observe body >>= k) (Eval.observe body' >>= k') :=
  runs.observe.bindOn fun _ _ same => same ▸ handles _

theorem orRaise (result : Except EvalError α) :
    c.Ties Eq (Eval.orRaise result) (Eval.orRaise result) := by
  cases result with
  | ok a => exact pure rfl
  | error e => exact raise e

theorem memory (f : Memory → α × Memory) :
    c.Ties Eq
      (modifyGet fun s : State => ((f s.shared.memory).1,
        { s with shared.memory := (f s.shared.memory).2 }))
      (modifyGet fun s : State => ((f s.shared.memory).1,
        { s with shared.memory := (f s.shared.memory).2 })) := by
  refine update fun states => ?_
  rw [states.memory]
  exact ⟨rfl, states.remember _⟩

theorem storage : Storage fun _ x => c.Ties Eq x x where
  pure _ := pure rfl
  bind first rest := first.bind rest
  read view := read fun states => congrArg view states.memory
  fault fault := halt (.fault fault)
  memory _ := memory _

/-- A change of the context apart from its stack and its live literals. -/
theorem context (change : Context → Context)
    (same : ∀ {outer s t}, c.States outer s t → c.States outer
      { s with context := change s.context } { t with context := change t.context }) :
    c.Ties Eq (modify fun s : State => { s with context := change s.context })
      (modify fun s : State => { s with context := change s.context }) :=
  update fun states => ⟨rfl, same states⟩

theorem setGlobal (name : String) (value : Value) :
    c.Ties Eq (Eval.setGlobal name value) (Eval.setGlobal name value) :=
  context (fun c => { c with globals := c.globals.insert name value }) fun states =>
    { states with globals := congrArg (·.insert name value) states.globals }

theorem setLastCall (type : CallType) :
    c.Ties Eq (Eval.setLastCall type) (Eval.setLastCall type) :=
  context (fun c => { c with lastCall := type }) fun states =>
    { states with lastCall := rfl }

theorem withScope (env : Env) {x : Eval α} {y : Eval β} (holds : c.Ties R x y) :
    c.Ties R (Eval.withScope env x) (Eval.withScope env y) := by
  refine (context (fun c => { c with scopes := env :: c.scopes }) fun states =>
    { states with scopes := congrArg (env :: ·) states.scopes }).bind fun _ => ?_
  exact fun outer s t states => (holds outer s t states).ensuring fun u v states =>
    { states with scopes := congrArg List.tail states.scopes }

end Ties

section frames

namespace Frames

variable {frame frame' : Frame} (tied : c.Frames frame frame')
include tied

theorem owners : c.Owners frame' frame.cls := by
  obtain ⟨cls, rfl, owners⟩ := tied
  exact owners

theorem self : frame.self = frame'.self := by
  obtain ⟨cls, rfl, -⟩ := tied
  rfl

theorem block : frame.block = frame'.block := by
  obtain ⟨cls, rfl, -⟩ := tied
  rfl

theorem jumpTarget : frame.jumpTarget = frame'.jumpTarget.map c.target := by
  obtain ⟨cls, rfl, -⟩ := tied
  rfl

theorem name : frame.name = frame'.name := by
  obtain ⟨cls, rfl, -⟩ := tied
  rfl

theorem visibility : frame.visibility = frame'.visibility := by
  obtain ⟨cls, rfl, -⟩ := tied
  rfl

theorem alike : c.Alike frame frame' := by
  obtain ⟨cls, rfl, -⟩ := tied
  exact ⟨rfl, rfl⟩

end Frames

theorem Shares.names {s t : State} (shares : c.Shares s t) :
    s.context.stack.backtrace = t.context.stack.backtrace := by
  have alike := shares.alike
  unfold FrameStack.backtrace
  generalize s.context.stack.frames = frames at alike
  generalize t.context.stack.frames = frames' at alike
  induction alike with
  | nil => rfl
  | cons first rest ih => rw [List.filterMap_cons, List.filterMap_cons, first.name, ih]

/-- Where the first engine catches a return, the second one catches returns that stand for it. -/
theorem Shares.active {s t : State} (shares : c.Shares s t) (target : Target) :
    s.context.stack.isActive target ↔
      ∃ active, c.target active = target ∧ t.context.stack.isActive active := by
  have alike := shares.alike
  unfold FrameStack.isActive
  generalize s.context.stack.frames = frames at alike
  generalize t.context.stack.frames = frames' at alike
  induction alike with
  | nil => simp
  | cons first rest ih =>
    simp only [List.any_cons, Bool.or_eq_true, decide_eq_true_eq, first.activation,
      Option.map_eq_some_iff, ih]
    constructor
    · rintro (⟨active, own, same⟩ | ⟨active, same, inside⟩)
      · exact ⟨active, same, .inl own⟩
      · exact ⟨active, same, .inr inside⟩
    · rintro ⟨active, same, own | inside⟩
      · exact .inl ⟨active, own, same⟩
      · exact .inr ⟨active, same, inside⟩

theorem States.current {outer : List Frame × List Frame} {s t : State} (states : c.States outer s t) :
    (∃ frame frame', s.context.stack.frames = frame :: outer.1 ∧
      t.context.stack.frames = frame' :: outer.2 ∧ c.Frames frame frame') ∨
      s.context.stack.frames = [] ∧ t.context.stack.frames = [] := by
  obtain ⟨⟨shares, below, below'⟩, innermost⟩ := states
  have alike := shares.alike
  generalize s.context.stack.frames = frames at *
  generalize t.context.stack.frames = frames' at *
  cases alike with
  | nil => exact .inr ⟨rfl, rfl⟩
  | @cons frame frame' _ _ _ _ =>
    exact .inl ⟨frame, frame', congrArg _ below, congrArg _ below', innermost frame rfl frame' rfl⟩

theorem States.currentFrame {outer : List Frame × List Frame} {s t : State}
    (states : c.States outer s t) :
    (∃ frame frame', s.context.stack.current = .ok frame ∧ t.context.stack.current = .ok frame' ∧
      c.Frames frame frame') ∨
      s.context.stack.current = .error .emptyStack ∧
        t.context.stack.current = .error .emptyStack := by
  unfold FrameStack.current
  obtain ⟨frame, frame', left, right, tied⟩ | ⟨left, right⟩ := states.current
  · rw [left, right]
    exact .inl ⟨frame, frame', rfl, rfl, tied⟩
  · rw [left, right]
    exact .inr ⟨rfl, rfl⟩

/-- What comes next knows under which frame it is. -/
theorem States.frameBind {outer : List Frame × List Frame} {s t : State} (states : c.States outer s t)
    {f : Frame → Eval α} {g : Frame → Eval β}
    (rest : ∀ {frame frame'}, t.context.stack.current = .ok frame' → c.Frames frame frame' →
      c.Ends (c.States outer) R (f frame s) (g frame' t)) :
    c.Ends (c.States outer) R ((Eval.currentFrame >>= f) s) ((Eval.currentFrame >>= g) t) := by
  obtain ⟨frame, frame', left, right, tied⟩ | ⟨left, right⟩ := states.currentFrame
  · rw [bind_ok (currentFrame_ok left), bind_ok (currentFrame_ok right)]
    exact rest right tied
  · rw [bind_error (currentFrame_error left), bind_error (currentFrame_error right)]
    exact .error (.fault .emptyStack) states

theorem States.envBind {outer : List Frame × List Frame} {s t : State} (states : c.States outer s t)
    {f : Env → Eval α} {g : Env → Eval β}
    (rest : ∀ env, c.Ends (c.States outer) R (f env s) (g env t)) :
    c.Ends (c.States outer) R ((Eval.currentEnv >>= f) s) ((Eval.currentEnv >>= g) t) := by
  cases scopes : t.context.scopes with
  | nil =>
    rw [bind_error (currentEnv_nil (states.scopes.trans scopes)), bind_error (currentEnv_nil scopes)]
    exact .error (.fault .noScope) states
  | cons env below =>
    rw [bind_ok (currentEnv_cons (states.scopes.trans scopes)), bind_ok (currentEnv_cons scopes)]
    exact rest env

namespace Ties

theorem frameBind {f : Frame → Eval α} {g : Frame → Eval β}
    (rest : ∀ {frame frame'}, c.Frames frame frame' → c.Ties R (f frame) (g frame')) :
    c.Ties R (Eval.currentFrame >>= f) (Eval.currentFrame >>= g) :=
  fun outer s t states => states.frameBind fun _ tied => rest tied outer s t states

theorem currentSelf : c.Ties Eq Eval.currentSelf Eval.currentSelf :=
  frameBind fun tied => pure tied.self

theorem blockGiven : c.Ties Eq Eval.blockGiven Eval.blockGiven :=
  frameBind fun tied => pure (congrArg (fun block => Value.bool (Option.isSome block)) tied.block)

theorem currentEnv : c.Ties Eq Eval.currentEnv Eval.currentEnv := by
  have scopes : c.Ties Eq (Eval.read (·.context.scopes)) (Eval.read (·.context.scopes)) :=
    read fun states => states.scopes
  refine scopes.bind fun scopes => ?_
  cases scopes with
  | nil => exact halt (.fault .noScope)
  | cons env outer => exact pure rfl

theorem global (name : String) : c.Ties Eq (Eval.global name) (Eval.global name) :=
  read fun states => congrArg (fun globals => (globals.get? name).getD Value.nil) states.globals

theorem constantValue (name : String) :
    c.Ties Eq (Eval.constantValue name) (Eval.constantValue name) :=
  (read fun states => states.library.constant name).bind fun result => (orRaise result).map _

theorem setVisibility (visibility : Visibility) :
    c.Ties Eq (Eval.setVisibility visibility) (Eval.setVisibility visibility) := by
  intro outer s t states
  simp only [Eval.setVisibility, Bind.bind, EStateM.bind, Eval.read, FrameStack.setVisibility]
  obtain ⟨frame, frame', left, right, tied⟩ | ⟨left, right⟩ := states.current
  · have alike := states.alike
    rw [left, right] at alike
    obtain ⟨cls, rfl, owners⟩ := tied
    rw [left, right]
    refine .ok rfl { states with alike := ?_, outer := ?_, outer' := ?_, innermost := ?_ }
    · simp only [FrameStack.modifyTop, left, right, List.modifyHead_cons]
      exact .cons ⟨rfl, rfl⟩ (List.forall₂_cons.1 alike).2
    · simp only [FrameStack.modifyTop, left, List.modifyHead_cons, List.tail_cons]
    · simp only [FrameStack.modifyTop, right, List.modifyHead_cons, List.tail_cons]
    · simp only [FrameStack.modifyTop, left, right, List.modifyHead_cons, List.head?_cons,
        Option.mem_def, Option.some.injEq, forall_eq']
      exact ⟨cls, rfl, owners⟩
  · rw [left, right]
    exact .error (.fault .emptyStack) states

theorem newObject (cls : ClassId) : c.Ties Eq (Eval.newObject cls) (Eval.newObject cls) := by
  refine update fun states => ?_
  have next := states.nextObject
  refine ⟨congrArg (fun id => Value.object ⟨id, cls⟩) next, { states with
    nextObject := congrArg (· + 1) next
    left := ⟨states.left.backend, states.left.methods⟩
    right := ⟨states.right.backend, states.right.methods⟩ }⟩

/-- The monitors may differ in what the hooks were told. -/
theorem changeMonitor {change change' : State → Monitor}
    (same : ∀ {outer s t}, c.States outer s t → (change s).silent = (change' t).silent) :
    c.Ties Eq (modify fun s : State => { s with shared.monitor := change s })
      (modify fun s : State => { s with shared.monitor := change' s }) :=
  update fun states => ⟨rfl, { states with
    monitor := same states
    left := ⟨states.left.backend, states.left.methods⟩
    right := ⟨states.right.backend, states.right.methods⟩ }⟩

theorem poll : c.Ties Eq Eval.poll Eval.poll := by
  refine bind (read fun {_ s t} states => ?_) fun isPending => ite Iff.rfl ?_ (pure rfl)
  · have pending : s.shared.monitor.pending = t.shared.monitor.pending :=
      (congrArg Monitor.pending states.monitor :)
    simp only [Monitor.isPending, pending, states.id]
  · refine (changeMonitor fun {_ s t} states => ?_).bind fun _ => raise .interrupted
    rw [states.id]
    exact congrArg (fun silent : Monitor => silent.settle t.context.id) states.monitor

end Ties

end frames

section handlers

namespace Ties

variable {body body' handler handler' : Eval Value}

theorem redoing (runs : c.Ties Eq body body') (bound : Nat) :
    c.Ties (fun outcome outcome' => outcome = outcome'.renamed c.target) (Eval.redoing body bound)
      (Eval.redoing body' bound) := by
  induction bound with
  | zero => exact halt .exhausted
  | succ bound ih =>
    refine runs.handle fun outcome => ?_
    rcases outcome with g | value
    · cases g with
      | redo => exact poll.bind fun _ => ih
      | _ => exact pure rfl
    · exact pure rfl

theorem looping {test test' : Eval Value} (tests : c.Ties Eq test test')
    (runs : c.Ties Eq body body') (bound iterations : Nat) :
    c.Ties Eq (Eval.looping test body bound iterations)
      (Eval.looping test' body' bound iterations) := by
  induction iterations with
  | zero => exact halt .exhausted
  | succ iterations ih =>
    refine poll.bind fun _ => tests.bind fun value => ite Iff.rfl ?_ (pure rfl)
    refine (runs.redoing bound).bindOn ?_
    rintro _ outcome rfl
    rcases outcome with g | value
    · cases g with
      | next value => exact ih
      | stop target value =>
        cases target with
        | none => exact pure rfl
        | some target => exact halt (.signal (.stop (some target) value))
      | leave target value => exact halt (.signal (.leave target value))
      | error e => exact raise e
      | redo => exact halt (.signal .redo)
      | retry => exact halt (.signal .retry)
    · exact ih

theorem rescuing (runs : c.Ties Eq body body') (handles : c.Ties Eq handler handler')
    (bound : Nat) :
    c.Ties Eq (Eval.rescuing body handler bound) (Eval.rescuing body' handler' bound) := by
  induction bound with
  | zero => exact halt .exhausted
  | succ bound ih =>
    refine runs.handle fun outcome => ?_
    rcases outcome with g | value
    · cases g with
      | error e =>
        refine ite Iff.rfl ((setGlobal "$!" (.str e.message)).bind fun _ => ?_) (raise e)
        refine handles.handle fun outcome => ?_
        rcases outcome with g | value
        · cases g with
          | retry => exact poll.bind fun _ => ih
          | _ => exact ofOutcome (.error _)
        · exact ofOutcome (.ok value)
      | _ => exact ofOutcome (.error _)
    · exact ofOutcome (.ok value)

end Ties

end handlers

section brackets

/-- The same call of the copy or of the original, or of one method. -/
def Calls (c : Recasting) (call call' : Invocation) : Prop :=
  ∃ owner, call = { call'.renamed c.target with owner } ∧ c.Owners call'.frame owner

theorem Calls.frame {call call' : Invocation} (calls : c.Calls call call') :
    c.Frames call.frame call'.frame := by
  obtain ⟨owner, rfl, owners⟩ := calls
  exact ⟨owner, rfl, owners⟩

theorem Shares.push {s t : State} (shares : c.Shares s t) (frame frame' : Frame) :
    (∃ e, s.context.stack.push frame = .error e ∧ t.context.stack.push frame' = .error e) ∨
      s.context.stack.push frame = .ok (s.context.stack.add frame) ∧
        t.context.stack.push frame' = .ok (t.context.stack.add frame') := by
  have depth : s.context.stack.depth = t.context.stack.depth := by
    rw [FrameStack.depth_eq, FrameStack.depth_eq, shares.alike.length_eq]
  unfold FrameStack.push
  rw [shares.limit, depth]
  cases t.context.stack.limit with
  | none => exact .inr ⟨rfl, rfl⟩
  | some limit =>
    dsimp only
    split
    · exact .inl ⟨_, rfl, rfl⟩
    · exact .inr ⟨rfl, rfl⟩

theorem Rests.pushed {s t : State} (shares : c.Shares s t) {frame frame' : Frame}
    (alike : c.Alike frame frame') :
    c.Rests (frame :: s.context.stack.frames, frame' :: t.context.stack.frames)
      (s.pushed (s.context.stack.add frame)) (t.pushed (t.context.stack.add frame')) :=
  { shares with alike := .cons alike shares.alike, frames := rfl, frames' := rfl }

theorem Around.popped {outer : List Frame × List Frame} {s t : State} (around : c.Around outer s t) :
    c.Rests outer s.popFrame t.popFrame :=
  { around with
    alike := by
      have alike := around.alike
      change List.Forall₂ c.Alike s.context.stack.frames.tail t.context.stack.frames.tail
      generalize s.context.stack.frames = frames at alike
      generalize t.context.stack.frames = frames' at alike
      cases alike with
      | nil => exact .nil
      | cons first rest => exact rest
    frames := around.outer, frames' := around.outer' }

theorem Rests.around {frame frame' : Frame} {outer : List Frame × List Frame} {s t : State}
    (rests : c.Rests (frame :: outer.1, frame' :: outer.2) s t) : c.Around outer s t :=
  { rests with outer := congrArg List.tail rests.frames, outer' := congrArg List.tail rests.frames' }

theorem Rests.states {frame frame' : Frame} {outer : List Frame × List Frame} {s t : State}
    (rests : c.Rests (frame :: outer.1, frame' :: outer.2) s t) (tied : c.Frames frame frame') :
    c.States outer s t :=
  { rests.around with
    innermost := by
      rw [rests.frames, rests.frames']
      rintro _ ⟨⟩ _ ⟨⟩
      exact tied }

theorem States.back {outer : List Frame × List Frame} {s t u v : State} (states : c.States outer s t)
    (rests : c.Rests (s.context.stack.frames, t.context.stack.frames) u v) : c.States outer u v :=
  { rests with
    outer := rests.frames ▸ states.outer
    outer' := rests.frames' ▸ states.outer'
    innermost := by
      rw [rests.frames, rests.frames']
      exact states.innermost }

/-- What is set up around a body is undone. -/
theorem Ends.withFrame {x : Eval α} {y : Eval β} {frame frame' : Frame} {s t : State}
    (shares : c.Shares s t) (alike : c.Alike frame frame')
    (inside : ∀ s' t',
      c.Rests (frame :: s.context.stack.frames, frame' :: t.context.stack.frames) s' t' →
        c.Ends (c.Around (s.context.stack.frames, t.context.stack.frames)) R (x s') (y t')) :
    c.Ends (c.Rests (s.context.stack.frames, t.context.stack.frames)) R (Eval.withFrame frame x s)
      (Eval.withFrame frame' y t) := by
  rw [withFrame_eq, withFrame_eq]
  obtain ⟨e, left, right⟩ | ⟨left, right⟩ := shares.push frame frame'
  · rw [left, right]
    exact .error (.signal (.error e)) { shares with frames := rfl, frames' := rfl }
  · rw [left, right]
    exact (inside _ _ (.pushed shares alike)).ensuring fun _ _ => Around.popped

namespace Framed

variable {x : Eval α} {y : Eval β} {frame frame' : Frame}

theorem ties (framed : c.Framed R x y) : c.Ties R x y :=
  fun _ _ _ states => (framed _ _ states.toShares).mono fun _ _ => states.back

theorem of_ties (tied : c.Frames frame frame') (holds : c.Ties R x y) :
    c.Framed R (Eval.withFrame frame x) (Eval.withFrame frame' y) := fun _ _ shares =>
  .withFrame shares tied.alike fun s' t' rests =>
    (holds _ s' t' (rests.states tied)).mono fun _ _ states => states.toAround

/-- Nothing looks at a frame in which another frame is pushed at once. -/
theorem withFrame (alike : c.Alike frame frame') (framed : c.Framed R x y) :
    c.Framed R (Eval.withFrame frame x) (Eval.withFrame frame' y) := by
  refine fun s t shares => .withFrame shares alike fun s' t' rests => ?_
  exact (framed s' t' rests.toShares).mono fun u v rests' => { rests' with
    outer := congrArg List.tail (rests'.frames.trans rests.frames)
    outer' := congrArg List.tail (rests'.frames'.trans rests.frames') }

end Framed

namespace Ties

variable {x : Eval α} {y : Eval β}

theorem withFrame {frame frame' : Frame} (tied : c.Frames frame frame') (holds : c.Ties R x y) :
    c.Ties R (Eval.withFrame frame x) (Eval.withFrame frame' y) :=
  (Framed.of_ties tied holds).ties

theorem withNewScope (scope : Option StaticId) (holds : c.Ties R x y) :
    c.Ties R (Eval.withNewScope scope x) (Eval.withNewScope scope y) := by
  cases scope with
  | none => exact holds
  | some scope => exact (storage.enterScope scope []).bind fun env => holds.withScope env

/-- The events may differ in the class that they name. -/
theorem traced {call call' : Invocation} (calls : c.Calls call call') (holds : c.Ties R x y) :
    c.Ties R (Eval.traced call x) (Eval.traced call' y) := by
  obtain ⟨owner, rfl, -⟩ := calls
  intro outer s t states
  have isActive : s.shared.monitor.isActive = t.shared.monitor.isActive :=
    (congrArg Monitor.isActive states.monitor :)
  have fires {event event' : Event} (kind : event.kind = event'.kind) {s t : State}
      (states : c.States outer s t) : c.States outer (s.fire event) (t.fire event') :=
    { states with
      monitor := Monitor.silent_fire states.monitor kind
      left := ⟨states.left.backend, states.left.methods⟩
      right := ⟨states.right.backend, states.right.methods⟩ }
  rw [Eval.traced_eq, Eval.traced_eq, isActive]
  split
  · exact (holds outer _ _ (fires (by rfl) states)).ensuring fun _ _ => fires (by rfl)
  · exact holds outer s t states

theorem framed (config : CallConfig) {call call' : Invocation} (calls : c.Calls call call')
    (holds : c.Ties R x y) :
    c.Ties R (Eval.withFrames (config.frames call) x) (Eval.withFrames (config.frames call') y) := by
  have body : c.Framed R (Eval.withFrame call.frame x) (Eval.withFrame call'.frame y) :=
    .of_ties calls.frame holds
  rw [CallConfig.frames_eq, CallConfig.frames_eq]
  cases config with
  | inPlace => exact holds
  | moduleFunction =>
    have owned : call.owner.isSome = call'.owner.isSome := by
      obtain ⟨owner, rfl, same | ⟨-, other, own, -⟩⟩ := calls
      · exact congrArg Option.isSome same
      · exact (congrArg Option.isSome other).trans (congrArg Option.isSome own).symm
    -- The frame of the module may be one of another class, but no body runs there.
    cases own : call.owner with
    | none =>
      have own' : call'.owner = none := by simpa [own] using owned.symm
      rw [own']
      exact body.ties
    | some owner =>
      rw [own] at owned
      obtain ⟨owner', own'⟩ := Option.isSome_iff_exists.1 owned.symm
      have alike : c.Alike { self := .cls owner, cls := some owner }
        { self := .cls owner', cls := some owner' } := ⟨rfl, rfl⟩
      rw [own']
      exact (body.withFrame alike).ties
  | frameAndScope | frameOnly | block => exact body.ties

theorem entering (config : CallConfig) {call call' : Invocation} (calls : c.Calls call call')
    (holds : c.Ties R x y) :
    c.Ties R (Eval.entering config call x) (Eval.entering config call' y) := by
  have inside := ((holds.traced calls).withNewScope
    (if config.pushesScope then call'.scope else none)).framed config calls
  obtain ⟨owner, rfl, -⟩ := calls
  by_cases checks : config.checksArity
  · simp only [Eval.entering, checks, if_true]
    exact (orRaise _).bind fun _ => inside
  · simp only [Eval.entering, checks]
    exact inside

end Ties

end brackets

end Recasting

end CallEngine
