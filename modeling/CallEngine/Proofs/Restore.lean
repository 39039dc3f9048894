import CallEngine.Proofs.Commands
/-! However an evaluation ends, it leaves the frames, the scopes and the live literals as it found
them. -/
namespace CallEngine

def FrameStack.withVisibility (stack : FrameStack) (visibility : Visibility) : FrameStack :=
  stack.modifyTop fun frame => { frame with visibility }

namespace FrameStack

theorem withVisibility_self (stack : FrameStack) : ∃ v, stack = stack.withVisibility v := by
  obtain ⟨frames, depth, limit, depth_eq⟩ := stack
  cases frames with
  | nil => exact ⟨.pub, rfl⟩
  | cons frame frames => exact ⟨frame.visibility, rfl⟩

theorem withVisibility_withVisibility (stack : FrameStack) (v w : Visibility) :
    (stack.withVisibility v).withVisibility w = stack.withVisibility w := by
  obtain ⟨frames, depth, limit, depth_eq⟩ := stack
  cases frames <;> rfl

theorem drop_add (stack : FrameStack) (frame : Frame) (v : Visibility) :
    ((stack.add frame).withVisibility v).drop = stack := by
  obtain ⟨frames, depth, limit, depth_eq⟩ := stack
  rfl

theorem setVisibility_eq {stack changed : FrameStack} {v : Visibility}
    (set : stack.setVisibility v = .ok changed) : changed = stack.withVisibility v := by
  unfold setVisibility at set
  split at set <;> cases set
  rfl

theorem push_eq {stack pushed : FrameStack} {frame : Frame}
    (push : stack.push frame = .ok pushed) : pushed = stack.add frame := by
  unfold FrameStack.push at push
  split at push
  · split at push <;> cases push
    rfl
  · cases push
    rfl

theorem push_error {stack : FrameStack} {frame : Frame} {e : EvalError}
    (push : stack.push frame = .error e) :
    ∃ limit, stack.limit = some limit ∧ limit ≤ stack.depth ∧ e = .stackOverflow limit := by
  unfold FrameStack.push at push
  split at push
  · next limit bounded =>
    split at push <;> cases push
    exact ⟨limit, bounded, ‹_›, rfl⟩
  · cases push

/-- Within its limit, if there is one. The root is never refused. -/
def Fits (stack : FrameStack) : Prop := ∀ limit, stack.limit = some limit → stack.depth ≤ max 1 limit

/-- Under the same limit, and within it as before. -/
structure FitsAs (stack later : FrameStack) : Prop where
  limit : later.limit = stack.limit
  fits : stack.Fits → later.Fits

theorem FitsAs.refl (stack : FrameStack) : stack.FitsAs stack := ⟨rfl, id⟩

theorem FitsAs.trans {a b c : FrameStack} (first : a.FitsAs b) (second : b.FitsAs c) : a.FitsAs c :=
  ⟨second.limit.trans first.limit, second.fits ∘ first.fits⟩

theorem push_fits {stack pushed : FrameStack} {frame : Frame}
    (push : stack.push frame = .ok pushed) : pushed.limit = stack.limit ∧ pushed.Fits := by
  obtain rfl := push_eq push
  refine ⟨rfl, fun limit bounded => ?_⟩
  have bounded' : stack.limit = some limit := bounded
  simp only [FrameStack.push, bounded'] at push
  split at push
  · cases push
  · change stack.depth + 1 ≤ max 1 limit
    omega

end FrameStack

/-- The same frames in the same places, but for the visibility of the innermost one, and the same
scopes. -/
structure Kept (c c' : Context) : Prop where
  stack : ∃ v, c'.stack = c.stack.withVisibility v
  scopes : c'.scopes = c.scopes

structure Restored (c c' : Context) : Prop extends Kept c c' where
  live : c'.liveLiterals = c.liveLiterals

/-- Literals whose calls a fault cut off still count as live. -/
structure Abandoned (c c' : Context) : Prop extends Kept c c' where
  live : c.liveLiterals <:+ c'.liveLiterals

/-- How a halt may leave the context that the evaluation began in. -/
def HaltsWell (c : Context) : Halt → Context → Prop
  | .signal _, c' => Restored c c'
  | .fault _, c' | .exhausted, c' => Abandoned c c'

def EndsWell {α : Type} (c : Context) : EStateM.Result Halt State α → Prop
  | .ok _ s' => Restored c s'.context
  | .error halt s' => HaltsWell c halt s'.context

def Restores : EvalProperty := fun _ x => ∀ s, EndsWell s.context (x s)

namespace Kept

theorem refl (c : Context) : Kept c c := ⟨c.stack.withVisibility_self, rfl⟩

theorem trans {c d e : Context} (first : Kept c d) (second : Kept d e) : Kept c e := by
  obtain ⟨v, stack⟩ := first.stack
  obtain ⟨w, stack'⟩ := second.stack
  refine ⟨⟨w, ?_⟩, second.scopes.trans first.scopes⟩
  rw [stack', stack, FrameStack.withVisibility_withVisibility]

theorem fits {c c' : Context} (kept : Kept c c') : c.stack.FitsAs c'.stack := by
  obtain ⟨v, same⟩ := kept.stack
  exact same ▸ ⟨rfl, id⟩

end Kept

namespace Restored

theorem of_eq {c c' : Context} (stack : c'.stack = c.stack) (scopes : c'.scopes = c.scopes)
    (live : c'.liveLiterals = c.liveLiterals) : Restored c c' :=
  ⟨⟨stack ▸ c'.stack.withVisibility_self, scopes⟩, live⟩

theorem refl (c : Context) : Restored c c := ⟨.refl c, rfl⟩

theorem abandoned {c c' : Context} (restored : Restored c c') : Abandoned c c' :=
  ⟨restored.toKept, restored.live ▸ List.suffix_refl _⟩

theorem trans {c d e : Context} (first : Restored c d) (second : Restored d e) : Restored c e :=
  ⟨first.toKept.trans second.toKept, second.live.trans first.live⟩

theorem halts {c d e : Context} {halt : Halt} (restored : Restored c d)
    (halts : HaltsWell d halt e) : HaltsWell c halt e := by
  cases halt with
  | signal => exact restored.trans halts
  | fault | exhausted => exact ⟨restored.toKept.trans halts.toKept, restored.live ▸ halts.live⟩

theorem ends {α : Type} {c d : Context} {result : EStateM.Result Halt State α}
    (restored : Restored c d) (ends : EndsWell d result) : EndsWell c result := by
  cases result with
  | ok => exact restored.trans ends
  | error => exact restored.halts ends

end Restored

theorem Local.restored {α : Type} {f : State → α × State} (isLocal : Local f) (s : State) :
    Restored s.context (f s).2.context := by
  have same := isLocal.surroundings s
  exact .of_eq (congrArg Surroundings.stack same :) (congrArg Surroundings.scopes same :)
    (congrArg Surroundings.live same :)

/-- Every ending keeps the frames and the scopes. -/
theorem HaltsWell.kept {c c' : Context} {halt : Halt} (halts : HaltsWell c halt c') :
    Kept c c' := by
  cases halt <;> exact halts.toKept

def State.enterLive (s : State) (target : Target) : State :=
  { s with context.liveLiterals := target :: s.context.liveLiterals }

def State.leaveLive (s : State) (target : Target) : State :=
  { s with context.liveLiterals := s.context.liveLiterals.erase target }

theorem Eval.whileLive_eq (target : Target) (body : Eval Value) (s : State) :
    whileLive target body s =
      match body (s.enterLive target) with
      | .ok value t => .ok (.ok value) (t.leaveLive target)
      | .error (.signal g) t => .ok (.error g) (t.leaveLive target)
      | .error halt t => .error halt t := by
  change (observe body >>= fun outcome => _) (s.enterLive target) = _
  simp only [Bind.bind, EStateM.bind, observe]
  cases body (s.enterLive target) with
  | ok value t => rfl
  | error halt t => cases halt <;> rfl

def State.pushed (s : State) (stack : FrameStack) : State := { s with context.stack := stack }

theorem Eval.withFrame_eq {α : Type} (frame : Frame) (body : Eval α) (s : State) :
    withFrame frame body s =
      match s.context.stack.push frame with
      | .ok stack => ensuring body State.popFrame (s.pushed stack)
      | .error e => .error (.signal (.error e)) s := by
  simp only [withFrame, pushFrame, Bind.bind, EStateM.bind, Eval.read]
  cases s.context.stack.push frame <;> rfl

/-- A frame that was pushed is the one that goes. -/
theorem Kept.popFrame {s t : State} {frame : Frame}
    (kept : Kept (s.pushed (s.context.stack.add frame)).context t.context) :
    t.popFrame.context.stack = s.context.stack := by
  obtain ⟨v, stack⟩ := kept.stack
  change t.context.stack.drop = _
  rw [stack]
  exact FrameStack.drop_add ..

theorem Restored.leaveLive {s t : State} {target : Target}
    (restored : Restored (s.enterLive target).context t.context) :
    Restored s.context (t.leaveLive target).context where
  stack := restored.stack
  scopes := restored.scopes
  live := by
    change t.context.liveLiterals.erase target = _
    rw [restored.live]
    exact List.erase_cons_head ..

namespace Restores

theorem bind {α β : Type} {x : Eval α} {f : α → Eval β} (first : Restores x)
    (rest : ∀ a, Restores (f a)) : Restores (x >>= f) := by
  intro s
  have ends := first s
  simp only [Bind.bind, EStateM.bind]
  split
  · next a t result =>
    rw [result] at ends
    exact ends.ends (rest a t)
  · next halt t result =>
    rw [result] at ends
    exact ends

theorem modifyGet {α : Type} {f : State → α × State}
    (keeps : ∀ s, Restored s.context (f s).2.context) : Restores (modifyGet f) := keeps

theorem read {α : Type} (view : State → α) : Restores (Eval.read view) := fun s => .refl s.context

theorem signal {α : Type} (g : Signal) : Restores (Eval.signal g : Eval α) :=
  fun s => .refl s.context

theorem halt {α : Type} (halt : Halt) : Restores (throw halt : Eval α) := by
  intro s
  cases halt with
  | signal => exact Restored.refl s.context
  | fault | exhausted => exact (Restored.refl s.context).abandoned

theorem orFault {α : Type} (result : Except Fault α) : Restores (Eval.orFault result) := by
  cases result with
  | ok => exact fun s => .refl s.context
  | error fault => exact halt _

theorem returnValue (value : Value) : Restores (Eval.returnValue value) := by
  refine (read _).bind orFault |>.bind fun frame => ?_
  split
  · exact signal _
  · refine (read _).bind fun isActive => ?_
    split <;> exact signal _

theorem poll : Restores Eval.poll := by
  refine (read _).bind fun isPending => ?_
  split
  · exact (modifyGet fun s => .refl s.context).bind fun _ => signal _
  · exact fun s => .refl s.context

theorem setVisibility (visibility : Visibility) : Restores (Eval.setVisibility visibility) := by
  intro s
  simp only [Eval.setVisibility, Bind.bind, EStateM.bind, Eval.read]
  cases set : s.context.stack.setVisibility visibility with
  | error fault => exact (Restored.refl s.context).abandoned
  | ok changed => exact ⟨⟨⟨visibility, FrameStack.setVisibility_eq set⟩, rfl⟩, rfl⟩

/-- A signal leaves the state as a value does, so it can be observed. -/
theorem observe {body : Eval Value} (holds : Restores body) : Restores (Eval.observe body) := by
  intro s
  have ends := holds s
  unfold Eval.observe
  split <;> next result =>
    rw [result] at ends
    exact ends

theorem ofOutcome (outcome : Outcome) : Restores (Eval.ofOutcome outcome) := by
  cases outcome with
  | ok value => exact fun s => Restored.refl s.context
  | error g => exact signal g

theorem handle {γ : Type} {x : Eval Outcome} {view : State → γ} {k : Outcome → γ → Eval Value}
    (holds : Restores x) (handled : ∀ outcome c, Handled Restores outcome (k outcome c)) :
    Restores (x >>= fun outcome => Eval.read view >>= k outcome) := by
  exact holds.bind fun outcome => (read view).bind fun c =>
    (handled outcome c).holds (ofOutcome outcome)

theorem whileLive {target : Target} {body : Eval Value} (holds : Restores body) :
    Restores (Eval.whileLive target body) := by
  intro s
  rw [Eval.whileLive_eq]
  have ends := holds (s.enterLive target)
  cases result : body (s.enterLive target) with
  | ok value t =>
    rw [result] at ends
    exact ends.leaveLive
  | error halt t =>
    rw [result] at ends
    cases halt with
    | signal => exact ends.leaveLive
    | fault | exhausted => exact ⟨⟨ends.stack, ends.scopes⟩, (List.suffix_cons _ _).trans ends.live⟩

/-- A body that runs in `inner`, and is followed by what takes `inner` back to `s`. -/
theorem ensuring {α : Type} {body : Eval α} {after : State → State} {s inner : State}
    (holds : Restores body)
    (undo : ∀ t, Kept inner.context t.context → Kept s.context (after t).context)
    (live : inner.context.liveLiterals = s.context.liveLiterals)
    (keeps : ∀ t, (after t).context.liveLiterals = t.context.liveLiterals) :
    EndsWell s.context (Eval.ensuring body after inner) := by
  have ends := holds inner
  unfold Eval.ensuring
  cases result : body inner with
  | ok a t =>
    rw [result] at ends
    exact ⟨undo t ends.toKept, (keeps t).trans (ends.live.trans live)⟩
  | error halt t =>
    rw [result] at ends
    cases halt with
    | signal => exact ⟨undo t ends.toKept, (keeps t).trans (ends.live.trans live)⟩
    | fault | exhausted => exact ⟨undo t ends.toKept, keeps t ▸ live ▸ ends.live⟩

theorem withFrame {α : Type} {frame : Frame} {body : Eval α} (holds : Restores body) :
    Restores (Eval.withFrame frame body) := by
  intro s
  rw [Eval.withFrame_eq]
  cases push : s.context.stack.push frame with
  | error e => exact Restored.refl s.context
  | ok pushed =>
    obtain rfl := FrameStack.push_eq push
    refine holds.ensuring (fun t kept => ⟨?_, kept.scopes⟩) rfl fun _ => rfl
    exact kept.popFrame ▸ FrameStack.withVisibility_self _

theorem withScope {α : Type} {env : Env} {body : Eval α} (holds : Restores body) :
    Restores (Eval.withScope env body) := by
  intro s
  refine holds.ensuring (fun t kept => ⟨kept.stack, ?_⟩) rfl fun _ => rfl
  exact congrArg List.tail kept.scopes

theorem traced {α : Type} {body : Eval α} (call : Invocation) (holds : Restores body) :
    Restores (Eval.traced call body) := by
  refine (read _).bind fun isActive => ?_
  split
  · exact (read _).bind fun event => (modifyGet fun s => .refl s.context).bind fun _ =>
      fun s => holds.ensuring (fun t kept => ⟨kept.stack, kept.scopes⟩) rfl fun _ => rfl
  · exact holds

/-- Under any configuration, and whether or not all of its frames fit. -/
theorem entering {α : Type} {body : Eval α} (config : CallConfig) (call : Invocation)
    (holds : Restores body) : Restores (Eval.entering config call body) := by
  have frames (frames : List Frame) {inner : Eval α} (holds : Restores inner) :
      Restores (Eval.withFrames frames inner) := by
    induction frames with
    | nil => exact holds
    | cons frame frames ih => exact withFrame ih
  have inScope (scope : Option StaticId) :
      Restores (Eval.withNewScope scope (Eval.traced call body)) := by
    have inside := holds.traced call
    cases scope with
    | none => exact inside
    | some scope => exact (modifyGet fun s => .refl s.context).bind fun env => inside.withScope
  unfold Eval.entering
  dsimp only
  split
  · refine bind ?_ fun _ => frames _ (inScope _)
    cases (call.arity.check call.argCount).mapError EvalError.arityMismatch with
    | ok => exact fun s => Restored.refl s.context
    | error e => exact signal _
  · exact frames _ (inScope _)

theorem codeToRun (id : MethodId) (name : String) : Restores (Eval.codeToRun id name) := by
  refine (modifyGet fun s => ?_).bind fun code => (read _).bind fun isActive => ?_
  · unfold State.promote
    dsimp only
    split <;> exact .refl s.context
  · split <;> exact fun s => Restored.refl s.context

theorem compositional : Compositional Restores where
  pure a s := Restored.refl s.context
  bind := bind
  read _ := read _
  exhausted := halt _
  raise _ := signal _
  jump _ := signal _
  claim _ _ := signal _
  leave := returnValue
  poll := poll
  visibility := setVisibility
  observe := observe
  live holds := (read _).bind fun _ => (whileLive holds).bind fun _ => ofOutcome _
  handle holds _ := handle holds.runs
  fault fault := halt _
  update isLocal := modifyGet isLocal.restored
  withFrame holds _ := withFrame holds
  withScope env holds := withScope holds
  traced := traced
  located holds := holds.runs.bind fun outcome => (read _).bind ofOutcome
  promoted id name runs others _ := (read _).bind fun m => by
    split
    · exact (codeToRun id name).bind fun code => runs _ _ _
    · exact others _

theorem sessional : Sessional Restores where
  toCompositional := compositional
  monitor _ := modifyGet fun s => .refl s.context

theorem perform (fuel : Nat) (names : Session.Names) (command : Session.Command) :
    Restores (Session.perform fuel names command) :=
  sessional.performAny read fuel names (sessional.needs command)

end Restores

namespace Session

/-- Every context of a session keeps its frames and scopes. -/
structure ContextsKept (session later : Session) : Prop where
  length : later.contexts.length = session.contexts.length
  kept : ∀ i, Kept (session.contexts.getD i default) (later.contexts.getD i default)

theorem ContextsKept.refl (session : Session) : ContextsKept session session :=
  ⟨rfl, fun _ => .refl _⟩

theorem ContextsKept.trans {a b c : Session} (first : ContextsKept a b)
    (second : ContextsKept b c) : ContextsKept a c :=
  ⟨second.length.trans first.length, fun i => (first.kept i).trans (second.kept i)⟩

theorem inContext_kept {α : Type} (session : Session) (id : ContextId) {body : Eval α}
    (restores : Restores body) : ContextsKept session (session.inContext id body).2 := by
  have ends := restores ⟨session.shared, session.contexts.getD id default⟩
  have set (c : Context) (kept : Kept (session.contexts.getD id default) c) (i : Nat) :
      Kept (session.contexts.getD i default) ((session.contexts.set id c).getD i default) := by
    by_cases same : id = i
    · subst same
      rw [List.getD_eq_getElem?_getD] at kept ⊢
      rw [List.getD_eq_getElem?_getD, List.getElem?_set_self']
      cases found : session.contexts[id]? with
      | none => exact .refl _
      | some _ => rwa [found] at kept
    · rw [List.getD_eq_getElem?_getD, List.getD_eq_getElem?_getD, List.getElem?_set_ne same]
      exact .refl _
  unfold inContext
  dsimp only
  split
  · next a s result =>
    rw [result] at ends
    exact ⟨List.length_set .., set s.context ends.toKept⟩
  · next halt s result =>
    rw [result] at ends
    exact ⟨List.length_set .., set s.context ends.kept⟩

theorem nameScope_contexts (session : Session) (command : Command) :
    (session.nameScope command).contexts = session.contexts := by
  unfold nameScope
  split
  · split <;> rfl
  · rfl

theorem keep_contexts (session : Session) (register : Option String)
    (result : Except Halt Finding) :
    (session.keep register result).contexts = session.contexts := by
  unfold keep
  split
  · split <;> rfl
  · rfl

theorem step_kept (fuel : Nat) (session : Session) (step : Step) :
    ContextsKept session (session.step fuel step).2 := by
  have named := nameScope_contexts session step.command
  have inside := inContext_kept (session.nameScope step.command) step.context
    (Restores.perform fuel (session.nameScope step.command).names step.command)
  have contexts : (session.step fuel step).2.contexts =
      ((session.nameScope step.command).inContext step.context
        (perform fuel (session.nameScope step.command).names step.command)).2.contexts :=
    keep_contexts _ _ _
  constructor
  · rw [contexts, inside.length, named]
  · intro i
    rw [contexts, ← named]
    exact inside.kept i

theorem after_kept (fuel : Nat) (session : Session) (steps : List Step) :
    ContextsKept session (session.after fuel steps) := by
  induction steps generalizing session with
  | nil => exact .refl session
  | cons first rest ih => exact (step_kept fuel session first).trans (ih _)

end Session

/-- Nothing but the root frame and the root scope. -/
structure Context.AtRoot (c : Context) : Prop where
  frames : c.stack.frames.length = 1
  scopes : c.scopes.length = 1

theorem Kept.atRoot {c c' : Context} (kept : Kept c c') (root : c.AtRoot) : c'.AtRoot := by
  obtain ⟨⟨v, stack⟩, scopes⟩ := kept
  refine ⟨?_, scopes ▸ root.scopes⟩
  rw [stack]
  exact List.length_modifyHead.trans root.frames

namespace Session

theorem addContexts_all {Q : Context → Prop}
    (fresh : ∀ shared id, Q (Shared.newContext shared id).1) (session : Session) (count : Nat)
    (old : ∀ c ∈ session.contexts, Q c) :
    ∀ c ∈ (session.addContexts count).contexts, Q c := by
  refine addContexts_keeps (P := fun session => ∀ c ∈ session.contexts, Q c)
    (fun session old c member => ?_) old count
  rcases List.mem_append.1 member with before | new
  · exact old c before
  · rw [List.mem_singleton] at new
    exact new ▸ fresh _ _

theorem ContextsKept.all {session later : Session} {Q : Context → Prop}
    (kept : ContextsKept session later) (keeps : ∀ {c c'}, Kept c c' → Q c → Q c')
    (before : ∀ c ∈ session.contexts, Q c) : ∀ c ∈ later.contexts, Q c := by
  intro c member
  obtain ⟨i, inside, rfl⟩ := List.getElem_of_mem member
  have inside' := kept.length ▸ inside
  have same := kept.kept i
  rw [List.getD_eq_getElem?_getD, List.getD_eq_getElem?_getD, List.getElem?_eq_getElem inside,
    List.getElem?_eq_getElem inside'] at same
  exact keeps same (before _ (List.getElem_mem inside'))

end Session

/-- Frames, scopes and live literals are as before, whichever way control comes back. -/
theorem stack_discipline (fuel : Nat) :
    (∀ node, Restores (Engine.evalNode fuel node)) ∧
    (∀ receiver name args block type,
      Restores (Engine.dispatch fuel receiver name args block type)) ∧
    (∀ method call, Restores (Engine.invoke fuel method call)) ∧
    (∀ config call (body : Eval Value), Restores body → Restores (Eval.entering config call body)) ∧
    (∀ closure args, Restores (Engine.callClosure fuel closure args)) ∧
    (∀ closure delivery, Restores (Engine.yield fuel closure delivery)) ∧
    (∀ scope body, Restores (Engine.runToplevel fuel scope body)) ∧
    (∀ receiver name args, Restores (Engine.send fuel receiver name args)) ∧
    ∀ config backend tellsCompiles hooks contexts firstTarget steps,
      let fresh := Session.start config backend tellsCompiles hooks contexts firstTarget
      Session.ContextsKept fresh (fresh.after fuel steps) ∧
        ∀ c ∈ (fresh.after fuel steps).contexts, c.AtRoot := by
  have h := Restores.compositional
  refine ⟨h.evalNode fuel, h.dispatch fuel, fun id call => h.answer fuel _, ?_, h.callClosure fuel,
    fun id delivery => h.answer fuel _, h.runToplevel fuel, h.send fuel, ?_⟩
  · exact fun config call body holds => holds.entering config call
  · intro config backend tellsCompiles hooks contexts firstTarget steps fresh
    have kept := fresh.after_kept fuel steps
    refine ⟨kept, kept.all Kept.atRoot (Session.addContexts_all (fun _ _ => ?_) _ contexts nofun)⟩
    exact ⟨rfl, rfl⟩

/-- There is room for the frame of the module but not for the one of the method. -/
theorem stack_discipline_moduleFunction :
    let s : State := ⟨{}, { id := 0, main := ⟨0, 0⟩, scopes := [[]],
                            stack := .ofRoot { self := .nil } (some 2) }⟩
    let call : Invocation :=
      { self := .nil, owner := some 1, name := "helper", arity := .noArguments, argCount := 0,
        block := none, scope := none, target := none, isBuiltin := false }
    let entered : Eval Value := Eval.entering .moduleFunction call (pure .nil)
    entered s = .error (.signal (.error (.stackOverflow 2))) s ∧
      EndsWell s.context (entered s) := by
  intro s call entered
  have inside : Restores (pure .nil : Eval Value) := fun s => .refl s.context
  exact ⟨rfl, (stack_discipline 0).2.2.2.1 .moduleFunction call (pure .nil) inside s⟩

end CallEngine
