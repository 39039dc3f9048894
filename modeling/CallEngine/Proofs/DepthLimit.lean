import CallEngine.Proofs.Promotion
import CallEngine.Proofs.Unwinding
/-! The limit on frames. No stack outgrows it, and apart from the error of the frame that does not fit
an evaluation is the same under every larger one. -/
namespace CallEngine
open Eval

/-- What fits under the first limit fits under the second one. -/
def Wider (limit wider : Option Nat) : Prop :=
  ∀ most, wider = some most → ∃ least ≤ most, limit = some least

def IsOverflow (kind : ErrorKind) : Prop := ∃ limit, kind = .stackOverflow limit

/-- The same end under another limit. -/
def relimited {α : Type} (limit : Option Nat) :
    EStateM.Result Halt State α → EStateM.Result Halt State α
  | .ok a s => .ok a (s.relimit limit)
  | .error halt s => .error halt (s.relimit limit)

theorem FrameStack.push_wider {stack pushed : FrameStack} {frame : Frame} {limit : Option Nat}
    (push : stack.push frame = .ok pushed) (wider : Wider stack.limit limit) :
    FrameStack.push { stack with limit } frame = .ok { pushed with limit } := by
  obtain rfl := push_eq push
  cases limit with
  | none => rfl
  | some most =>
    obtain ⟨least, fewer, bounded⟩ := wider most rfl
    simp only [FrameStack.push, bounded] at push ⊢
    split at push
    · cases push
    · rw [if_neg (by omega)]
      rfl

namespace Comparison

/-- A run, and the same run under a larger limit. It is lost when a frame does not fit. -/
abbrev widening (limit : Option Nat) : Comparison where
  related s t := t = s.relimit limit ∧ Wider s.context.stack.limit limit
  loses := IsOverflow
  lapsed _ := False

variable {limit : Option Nat}

/-- Only the settings for promotion decide what is compiled. -/
theorem promote_relimit (s : State) (id : MethodId) (name : String) :
    (s.relimit limit).promote id name =
      ((s.promote id name).1, (s.promote id name).2.relimit limit) := by
  unfold State.promote
  dsimp only
  rw [show (s.relimit limit).shared.library = s.shared.library from rfl]
  split <;> rfl

theorem widening_kept (limit : Option Nat) : (widening limit).IsKept where
  unrescuable kind overflows := by
    obtain ⟨depth, rfl⟩ := overflows
    rfl
  fire _ := id
  settle _ := id
  view related blind := by
    rw [related.1, blind.relimit]
  update {_ s t f} related boundless := by
    obtain ⟨rfl, wider⟩ := related
    have stack : (f s).2.context.stack = s.context.stack :=
      (congrArg Surroundings.stack (boundless.surroundings s) :)
    rw [boundless.relimit]
    exact ⟨rfl, rfl, stack ▸ wider⟩
  context {s t change} related boundless := by
    obtain ⟨rfl, wider⟩ := related
    refine ⟨?_, (boundless.limit s.context).symm ▸ wider⟩
    change (⟨_, change { s.context with stack.limit := limit }⟩ : State) = _
    rw [boundless.relimit]
    rfl
  monitor related _ := by
    obtain ⟨rfl, wider⟩ := related
    exact .inr ⟨rfl, wider⟩
  push {s t} related frame := by
    obtain ⟨rfl, wider⟩ := related
    cases push : s.context.stack.push frame with
    | error e =>
      obtain ⟨depth, -, -, rfl⟩ := FrameStack.push_error push
      exact .inr ⟨_, rfl, .inl ⟨depth, rfl⟩⟩
    | ok stack =>
      have same : stack.limit = s.context.stack.limit := FrameStack.push_eq push ▸ rfl
      exact .inl ⟨stack, { stack with limit }, rfl, FrameStack.push_wider push wider, rfl,
        (same ▸ wider :)⟩
  promote {s t id definition} related name own := by
    obtain ⟨rfl, wider⟩ := related
    have context := s.promote_context id name
    let active := (s.promote id name).2.shared.monitor.isActive
    refine ⟨⟨congrArg Prod.snd (promote_relimit s id name), context ▸ wider⟩,
      if active then none else (s.promote id name).1, fun run _ => ⟨codeToRun_runs run s id name, ?_⟩⟩
    rw [codeToRun_runs, promote_relimit]
    rfl

end Comparison

/-- Unless a frame does not fit, the end is the same under every larger limit. -/
def IgnoresLimit : EvalProperty := fun _ x => ∀ (s : State) (limit : Option Nat),
  Wider s.context.stack.limit limit → ¬Fails IsOverflow (halted (x s)) →
    x (s.relimit limit) = relimited limit (x s)

theorem IgnoresLimit.of_tandem {α : Type} {x : Eval α}
    (holds : ∀ limit, (Comparison.widening limit).Tandem x) : IgnoresLimit x := by
  intro s limit wider fits
  have ends := (holds limit).runs s (s.relimit limit) ⟨rfl, wider⟩
  generalize x s = left at ends fits ⊢
  generalize x (s.relimit limit) = right at ends ⊢
  cases ends with
  | ok a related => exact congrArg _ related.1
  | error halt related => exact congrArg _ related.1
  | fails overflows => exact absurd overflows fits
  | lapses lapsed => exact lapsed.elim

/-- At the end, and wherever a call or a yield is asked for in between, the limit is the same and the
frames are within it if they were before. -/
def FitsThroughout (x : Responder → Eval Value) : Prop := ∀ (fuel : Nat) (s : State),
  s.context.stack.FitsAs (finalState (x (answer fuel) s)).context.stack ∧
    ∀ last final t, During x fuel s last final t → s.context.stack.FitsAs t.context.stack

theorem EndsWell.fits {α : Type} {c : Context} {result : EStateM.Result Halt State α}
    (ends : EndsWell c result) : c.stack.FitsAs (finalState result).context.stack := by
  cases result with
  | ok a t =>
    have restored : Restored c t.context := ends
    exact restored.fits
  | error halt t =>
    have halts : HaltsWell c halt t.context := ends
    exact halts.kept.fits

theorem FitsThroughout.of_forwards {x : Responder → Eval Value} (forwards : Forwards x)
    (restores : ∀ fuel, Restores (x (answer fuel))) : FitsThroughout x := by
  refine fun fuel s => ⟨(restores fuel s).fits, ?_⟩
  rintro last final t ⟨request, t', asked, path⟩
  have resumes {u v : State} (fits : s.context.stack.FitsAs u.context.stack)
      (resumes : u.Resumes v) : s.context.stack.FitsAs v.context.stack :=
    fits.trans resumes.stack
  exact path.reaches resumes (fun _ => id)
    (asked.reaches forwards.transparent resumes (fun _ => id) (.refl _))

theorem Shared.start_config (config : Config) (backend : Backend) (hooks : List Hook)
    (firstTarget : Nat) : (Shared.start config backend hooks firstTarget).config = config := by
  let bare := withCoreClasses { config, backend, nextTarget := firstTarget }
  have core : bare.withCoreMethods.config = config :=
    List.foldlRecOn Core.methods install (motive := fun shared => shared.config = config) rfl
      fun shared same entry _ => (same : (shared.install entry).config = config)
  exact core

theorem Session.addContexts_fits (session : Session) (count : Nat)
    (old : ∀ c ∈ session.contexts,
      c.stack.limit = session.shared.config.depthLimit ∧ c.stack.Fits) :
    ∀ c ∈ (session.addContexts count).contexts,
      c.stack.limit = session.shared.config.depthLimit ∧ c.stack.Fits := by
  refine (addContexts_keeps (P := fun later => later.shared.config = session.shared.config ∧
    ∀ c ∈ later.contexts, c.stack.limit = session.shared.config.depthLimit ∧ c.stack.Fits)
    (fun later holds => ⟨holds.1, fun c member => ?_⟩) ⟨rfl, old⟩ count).2
  rcases List.mem_append.1 member with before | new
  · exact holds.2 c before
  · rw [List.mem_singleton.1 new]
    exact ⟨congrArg Config.depthLimit holds.1, fun limit _ => Nat.le_max_left 1 limit⟩

/-- A frame is pushed only where it fits, and if one does not then that is how the evaluation ends. -/
theorem depth_limit_only_overflows :
    (∀ config backend tellsCompiles hooks contexts firstTarget fuel steps,
      ∀ c ∈ ((Session.start config backend tellsCompiles hooks contexts firstTarget).after fuel
        steps).contexts, c.stack.limit = config.depthLimit ∧ c.stack.Fits) ∧
    (∀ (stack pushed : FrameStack) frame, stack.push frame = .ok pushed →
      pushed.limit = stack.limit ∧ pushed.Fits) ∧
    (∀ bound, (∀ node : Node, FitsThroughout fun ask => node.eval bound ask) ∧
      (∀ receiver name args block type,
        FitsThroughout fun ask => Eval.dispatch ask receiver name args block type) ∧
      (∀ request, FitsThroughout fun ask => ask request) ∧
      (∀ closure args, FitsThroughout fun ask => Eval.callClosure ask closure args) ∧
      (∀ scope (body : Node),
        FitsThroughout fun ask => Engine.toplevelOf scope (body.eval bound ask)) ∧
      ∀ receiver name args,
        FitsThroughout fun ask => Eval.callMethod ask receiver name args none .normal) ∧
    ∀ fuel, (∀ node, IgnoresLimit (Engine.evalNode fuel node)) ∧
      (∀ receiver name args block type,
        IgnoresLimit (Engine.dispatch fuel receiver name args block type)) ∧
      (∀ method call, IgnoresLimit (Engine.invoke fuel method call)) ∧
      (∀ closure args, IgnoresLimit (Engine.callClosure fuel closure args)) ∧
      (∀ closure delivery, IgnoresLimit (Engine.yield fuel closure delivery)) ∧
      (∀ scope body, IgnoresLimit (Engine.runToplevel fuel scope body)) ∧
      ∀ receiver name args, IgnoresLimit (Engine.send fuel receiver name args) := by
  open Passage.Tracks in
  refine ⟨?_, fun _ _ _ push => FrameStack.push_fits push, fun bound => ?_, fun fuel => ?_⟩
  · intro config backend tellsCompiles hooks contexts firstTarget fuel steps
    let fresh := Session.start config backend tellsCompiles hooks contexts firstTarget
    have bounded : ∀ c ∈ fresh.contexts, c.stack.limit = config.depthLimit ∧ c.stack.Fits :=
      Shared.start_config config backend hooks firstTarget ▸
        Session.addContexts_fits _ contexts nofun
    refine (fresh.after_kept fuel steps).all (fun kept before => ?_) bounded
    exact ⟨kept.fits.limit.trans before.1, kept.fits.fits before.2⟩
  · have h := Restores.compositional
    have evaluates (node : Node) : Forwards fun ask => node.eval bound ask :=
      fun opened _ _ asks => eval opened asks bound node
    have nodes (fuel : Nat) (node : Node) := h.eval (h.answer fuel) bound (fun _ => trivial) node
    exact ⟨fun node => .of_forwards (evaluates node) fun fuel => nodes fuel node,
      fun receiver name args block type => .of_forwards
        (fun opened _ _ asks => dispatch opened asks receiver name args block type)
        fun fuel => h.dispatch fuel receiver name args block type,
      fun request => .of_forwards (fun _ _ _ asks => asks request) fun fuel => h.answer fuel request,
      fun closure args => .of_forwards (fun opened _ _ asks => callClosure opened asks closure args)
        fun fuel => h.callClosure fuel closure args,
      fun scope body => .of_forwards
        (fun opened _ _ asks => toplevelOf opened (evaluates body opened asks) scope)
        fun fuel => h.toplevelOf (nodes fuel body) scope,
      fun receiver name args => .of_forwards
        (fun opened _ _ asks => callMethod opened asks receiver name args none .normal)
        fun fuel => h.control.callMethod (h.answer fuel) receiver name args none .normal⟩
  · have h (limit : Option Nat) := (Comparison.widening_kept limit).composing
    exact ⟨fun node => .of_tandem fun limit => (h limit).evalNode fuel node,
      fun receiver name args block type => .of_tandem fun limit =>
        (h limit).dispatch fuel receiver name args block type,
      fun method call => .of_tandem fun limit => (h limit).answer fuel (.invoke method call),
      fun closure args => .of_tandem fun limit => (h limit).callClosure fuel closure args,
      fun closure delivery => .of_tandem fun limit => (h limit).answer fuel (.yield closure delivery),
      fun scope body => .of_tandem fun limit => (h limit).runToplevel fuel scope body,
      fun receiver name args => .of_tandem fun limit => (h limit).send fuel receiver name args⟩

/-- A method that needs one frame besides the root. -/
theorem depth_limit_only_overflows_second_frame :
    let one : Method := ⟨Core.object, .pub, .frameAndScope, ⟨1⟩, .compiled 0 {} (.const (.int 1))⟩
    let s (limit : Option Nat) : State :=
      ⟨{ library.classes := #[{ name := "Object", methods := Table.insert {} "one" 0 }]
         library.methods := #[one], config.depthLimit := limit },
        { id := 0, main := ⟨0, 0⟩, scopes := [[]],
          stack := .ofRoot { self := .object ⟨0, 0⟩ } limit }⟩
    let node : Node := .bareCall "one"
    Fails IsOverflow (halted (Engine.evalNode 3 node (s (some 1)))) ∧
      (∃ t, Engine.evalNode 3 node (s (some 2)) = .ok (.int 1) t ∧
        Engine.evalNode 3 node (s (some 4)) = .ok (.int 1) (t.relimit (some 4))) ∧
      ∀ last final t, During (fun ask => node.eval 3 ask) 3 (s (some 2)) last final t →
        t.context.stack.depth ≤ 2 := by
  intro one s node
  obtain ⟨-, -, bounded, ignores⟩ := depth_limit_only_overflows
  have wider : Wider (s (some 2)).context.stack.limit (some 4) := by
    rintro _ ⟨⟩
    exact ⟨2, by decide, rfl⟩
  have ends : ∃ t, Engine.evalNode 3 node (s (some 2)) = .ok (.int 1) t := ⟨_, rfl⟩
  obtain ⟨t, ends⟩ := ends
  have same := (ignores 3).1 node (s (some 2)) (some 4) wider (by rw [ends]; exact id)
  refine ⟨⟨1, rfl⟩, ⟨t, ends, ?_⟩, fun last final u during => ?_⟩
  · rw [ends] at same
    exact same
  · have fits := ((bounded 3).1 node 3 (s (some 2))).2 last final u during
    exact fits.fits (fun limit _ => Nat.le_max_left 1 limit) 2 fits.limit

end CallEngine
