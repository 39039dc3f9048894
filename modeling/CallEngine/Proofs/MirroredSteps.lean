import CallEngine.Proofs.Mirroring
/-! What bodies do does the same under other identities: brackets, handlers, definitions, closures and
calls. -/
namespace CallEngine
open Eval

theorem State.popFrame_renamed (ρ : Target → Target) (s : State) :
    (s.renamed ρ).popFrame = s.popFrame.renamed ρ := by
  have dropped := s.context.stack.drop_renamed ρ
  simp only [popFrame, renamed, Context.renamed, dropped]

/-- Counting a call has nothing to do with identities. -/
theorem State.promote_renamed {ρ : Target → Target} (zero : ρ ⟨0⟩ = ⟨0⟩) (s : State) (id : MethodId)
    (name : String) : (s.renamed ρ).promote id name =
      ((s.promote id name).1, (s.promote id name).2.renamed ρ) := by
  have found := s.shared.library.method_renamed zero id
  unfold promote
  dsimp only
  rw [show (s.renamed ρ).shared.library = s.shared.library.renamed ρ from rfl, found]
  obtain ⟨owner, visibility, config, target, body⟩ := s.shared.library.method id
  cases body with
  | interpreted definition promotion =>
    simp only [Method.renamed, renamed, Shared.renamed, Library.renamed, Library.setMethod,
      Array.map_setIfInBounds]
  | compiled | builtin => rfl

theorem Library.openClass_renamed (library : Library) (ρ : Target → Target) (name : String)
    (superclass : Option String) (isModule : Bool) :
    (library.renamed ρ).openClass name superclass isModule =
      (library.openClass name superclass isModule).map fun made => (made.1, made.2.renamed ρ) := by
  unfold openClass
  rw [show (library.renamed ρ).constants = library.constants from rfl]
  cases library.constants.get? name with
  | some id =>
    dsimp only
    rw [show (library.renamed ρ).cls id = library.cls id from rfl]
    split <;> rfl
  | none =>
    dsimp only
    split
    · rfl
    · cases superclass with
      | none => rfl
      | some parent =>
        dsimp only
        rw [show (library.renamed ρ).constant parent = library.constant parent from rfl]
        cases library.constant parent <;> rfl

/-- A class that is made comes under one that a constant names, or under the class of all objects. -/
theorem Library.openClass_ok {library : Library} {name : String} {superclass : Option String}
    {isModule : Bool} {made : ClassId × Library}
    (opens : library.openClass name superclass isModule = .ok made) :
    made.2 = library ∨ made = library.defineModule name ∨ ∃ parent : Option ClassId,
      (∀ id, parent = some id → ∃ constant, library.constant constant = .ok id) ∧
        made = library.defineClass name (parent.getD Core.object) := by
  unfold openClass at opens
  split at opens
  · split at opens <;> cases opens
    exact .inl rfl
  · split at opens
    · cases opens
      exact .inr (.inl rfl)
    · split at opens
      · cases opens
        exact .inr (.inr ⟨none, nofun, rfl⟩)
      · next parent =>
        cases found : library.constant parent with
        | error e =>
          rw [found] at opens
          cases opens
        | ok id =>
          rw [found] at opens
          cases opens
          refine .inr (.inr ⟨some id, fun other same => ?_, rfl⟩)
          cases same
          exact ⟨parent, found⟩

namespace Mirror

variable {c : Mirror}

theorem Proper.current {s t : State} {frame : Frame} (proper : c.Proper s)
    (current : currentFrame s = .ok frame t) : s.shared.Gave c.first frame.identities := by
  simp only [currentFrame, Bind.bind, EStateM.bind, Eval.read, FrameStack.current] at current
  cases frames : s.context.stack.frames with
  | nil =>
    rw [frames] at current
    cases current
  | cons top outer =>
    rw [frames] at current
    cases current
    refine proper.context.subset fun target member => List.mem_append_left _ ?_
    exact frames ▸ List.mem_append_left _ member

namespace Mirrors

theorem storage (c : Mirror) : Storage fun _ x => c.Mirrors id x x where
  pure a := pure a
  bind := bind
  read _ := read fun _ => rfl
  fault fault := halt (.fault fault)
  memory _ := memory _

theorem currentFrame :
    c.Mirrors (Frame.renamed c.rename) Eval.currentFrame Eval.currentFrame :=
  (read fun s => s.context.stack.current_renamed c.rename).bind fun _ => orFault _

theorem currentSelf : c.Mirrors id Eval.currentSelf Eval.currentSelf :=
  currentFrame.bind fun frame => pure frame.self

theorem currentClass : c.Mirrors id Eval.currentClass Eval.currentClass :=
  currentFrame.bind fun frame => pure (frame.cls.getD Core.object)

theorem currentEnv : c.Mirrors id Eval.currentEnv Eval.currentEnv := by
  refine bind (g := id) (read fun _ => rfl) fun scopes => ?_
  cases scopes with
  | nil => exact halt (.fault .noScope)
  | cons env outer => exact pure env

theorem setVisibility (visibility : Visibility) :
    c.Mirrors id (Eval.setVisibility visibility) (Eval.setVisibility visibility) := by
  intro s proper
  have same := s.context.stack.withVisibility_renamed c.rename visibility
  simp only [Eval.setVisibility, Bind.bind, EStateM.bind, Eval.read, FrameStack.setVisibility]
  rw [show (s.renamed c.rename).context.stack.frames =
    s.context.stack.frames.map (Frame.renamed c.rename) from rfl]
  cases frames : s.context.stack.frames with
  | nil => exact ⟨rfl, .refl proper⟩
  | cons frame outer =>
    refine ⟨?_, .context proper ?_⟩
    · change EStateM.Result.ok () ((s.renamed c.rename).pushed
        ((s.context.stack.renamed c.rename).withVisibility visibility)) = _
      rw [same]
      rfl
    · have given := proper.context
      simp only [Context.identities, FrameStack.modifyTop, frames] at given ⊢
      exact given

theorem global (name : String) : c.Mirrors id (Eval.global name) (Eval.global name) :=
  read fun _ => rfl

theorem setGlobal (name : String) (value : Value) :
    c.Mirrors id (Eval.setGlobal name value) (Eval.setGlobal name value) :=
  update (fun _ _ => rfl) fun _ proper => .context proper proper.context

theorem setLastCall (type : CallType) :
    c.Mirrors id (Eval.setLastCall type) (Eval.setLastCall type) :=
  update (fun _ _ => rfl) fun _ proper => .context proper proper.context

theorem newObject (cls : ClassId) : c.Mirrors id (Eval.newObject cls) (Eval.newObject cls) :=
  update (fun _ _ => rfl) fun _ proper => .unchanged proper rfl rfl rfl

theorem changeMonitor {α : Type} (f : Monitor → ContextId → α × Monitor) :
    c.Mirrors id (Eval.changeMonitor f) (Eval.changeMonitor f) :=
  update (fun _ _ => rfl) fun _ proper => .unchanged proper rfl rfl rfl

theorem poll : c.Mirrors id Eval.poll Eval.poll := by
  refine bind (g := id) (read fun _ => rfl) fun isPending => ?_
  refine ite Iff.rfl ?_ (pure ())
  exact (changeMonitor fun monitor id => ((), monitor.settle id)).bind fun _ => raise .interrupted

section handlers

variable {body body' handler handler' : Eval Value}

/-- A handler that makes the same of outcomes that are the same but for the renaming. -/
theorem handle {α β : Type} {g : α → β} {k : Outcome → Eval α} {k' : Outcome → Eval β}
    (runs : c.Mirrors id body body') (handles : ∀ outcome, c.Mirrors g (k outcome)
      (k' (outcome.renamed c.rename))) :
    c.Mirrors g (Eval.observe body >>= k) (Eval.observe body' >>= k') :=
  runs.observe.bind handles

theorem redoing (runs : c.Mirrors id body body') (bound : Nat) :
    c.Mirrors (Outcome.renamed c.rename) (Eval.redoing body bound) (Eval.redoing body' bound) := by
  induction bound with
  | zero => exact halt .exhausted
  | succ bound ih =>
    refine runs.handle fun outcome => ?_
    rcases outcome with g | value
    · cases g with
      | redo => exact poll.bind fun _ => ih
      | _ => exact pure _
    · exact pure _

theorem looping {test test' : Eval Value} (tests : c.Mirrors id test test')
    (runs : c.Mirrors id body body') (bound iterations : Nat) :
    c.Mirrors id (Eval.looping test body bound iterations)
      (Eval.looping test' body' bound iterations) := by
  induction iterations with
  | zero => exact halt .exhausted
  | succ iterations ih =>
    refine poll.bind fun _ => tests.bind fun value => ite Iff.rfl ?_ (pure _)
    refine (runs.redoing bound).bind fun outcome => ?_
    rcases outcome with g | value
    · cases g with
      | next value => exact ih
      | stop target value =>
        cases target with
        | none => exact pure value
        | some target => exact halt (.signal (.stop (some target) value))
      | leave target value => exact halt (.signal (.leave target value))
      | error e => exact raise e
      | redo => exact halt (.signal .redo)
      | retry => exact halt (.signal .retry)
    · exact ih

theorem rescuing (runs : c.Mirrors id body body') (handles : c.Mirrors id handler handler')
    (bound : Nat) :
    c.Mirrors id (Eval.rescuing body handler bound) (Eval.rescuing body' handler' bound) := by
  induction bound with
  | zero => exact halt .exhausted
  | succ bound ih =>
    refine runs.handle fun outcome => ?_
    rcases outcome with g | value
    · cases g with
      | error e =>
        refine ite Iff.rfl ((setGlobal "$!" (.str e.message)).bind fun _ => ?_) (raise e)
        refine handles.handle fun outcome => ?_
        rcases outcome with g | value
        · cases g with
          | retry => exact poll.bind fun _ => ih
          | _ => exact ofOutcome (.error _)
        · exact ofOutcome (.ok value)
      | _ => exact ofOutcome (.error _)
    · exact ofOutcome (.ok value)

theorem surfaced (runs : c.Mirrors id body body') :
    c.Mirrors id (Engine.surfaced body) (Engine.surfaced body') :=
  runs.handle fun outcome => outcome.surfaced_renamed c.rename ▸ ofOutcome outcome.surfaced

end handlers

section operations

theorem applyBinary (zero : c.rename ⟨0⟩ = ⟨0⟩) (op : BinaryOp) (left right : Value) :
    c.Mirrors id (Eval.applyBinary op left right) (Eval.applyBinary op left right) := by
  unfold Eval.applyBinary
  split
  · exact pure _
  · exact raiseWith fun s => by rw [s.directory_renamed zero]

theorem constantValue (name : String) :
    c.Mirrors id (Eval.constantValue name) (Eval.constantValue name) :=
  bind (g := id) (read fun _ => rfl) fun result => (orRaise result).map _

theorem blockGiven : c.Mirrors id Eval.blockGiven Eval.blockGiven :=
  currentFrame.bind fun frame => pure (Value.bool frame.block.isSome)

end operations

section brackets

variable {α β : Type} {g : α → β} {x : Eval α} {y : Eval β}

theorem withFrame {s : State} {frame : Frame} (proper : c.Proper s)
    (given : s.shared.Gave c.first frame.identities)
    (holds : ∀ t, c.Later s t → c.Agrees g t (x t) (y (t.renamed c.rename))) :
    c.Agrees g s (Eval.withFrame frame x s)
      (Eval.withFrame (frame.renamed c.rename) y (s.renamed c.rename)) := by
  have same := s.context.stack.push_renamed c.rename frame
  rw [withFrame_eq, withFrame_eq,
    show (s.renamed c.rename).context.stack = s.context.stack.renamed c.rename from rfl, same]
  cases push : s.context.stack.push frame with
  | error e => exact ⟨rfl, .refl proper⟩
  | ok stack =>
    obtain rfl := FrameStack.push_eq push
    have pushed : c.Later s (s.pushed (s.context.stack.add frame)) := by
      refine .context proper ?_
      change s.shared.Gave c.first ((frame.identities ++ _) ++ _)
      rw [List.append_assoc]
      exact given.append proper.context
    have pops (t : State) (later : c.Later (s.pushed (s.context.stack.add frame)) t) :
        c.Later (s.pushed (s.context.stack.add frame)) t.popFrame := by
      refine later.trans (.context later.proper (later.proper.context.subset ?_))
      refine List.append_subset.2 ⟨fun target member => ?_, List.subset_append_right ..⟩
      obtain ⟨frame, inside, own⟩ := List.mem_flatMap.1 member
      exact List.mem_append_left _ (List.mem_flatMap.2 ⟨frame, List.mem_of_mem_tail inside, own⟩)
    have inside := holds _ pushed
    exact (inside.ensuring (fun t => (t.popFrame_renamed c.rename).symm) pops).after pushed

theorem withFrames {s : State} {frames : List Frame} (proper : c.Proper s)
    (given : s.shared.Gave c.first (frames.flatMap Frame.identities)) (holds : c.Mirrors g x y) :
    c.Agrees g s (Eval.withFrames frames x s)
      (Eval.withFrames (frames.map (Frame.renamed c.rename)) y (s.renamed c.rename)) := by
  induction frames generalizing s with
  | nil => exact holds s proper
  | cons frame frames ih =>
    refine withFrame proper (given.subset (List.subset_append_left ..)) fun t later => ?_
    exact ih later.proper (later.gave (given.subset (List.subset_append_right ..)))

theorem withNewScope (scope : Option StaticId) (holds : c.Mirrors g x y) :
    c.Mirrors g (Eval.withNewScope scope x) (Eval.withNewScope scope y) := by
  cases scope with
  | none => exact holds
  | some scope => exact ((Mirrors.storage c).enterScope scope []).bind fun env => holds.withScope env

theorem traced (call : Invocation) (holds : c.Mirrors g x y) :
    c.Mirrors g (Eval.traced call x) (Eval.traced (call.renamed c.rename) y) := by
  have fires (event : Event) (t : State) (proper : c.Proper t) : c.Later t (t.fire event) :=
    .unchanged proper rfl rfl rfl
  refine .bind (g := id) (.read fun _ => rfl) fun isActive => .ite Iff.rfl ?_ holds
  refine .bind (g := id) (.read fun s => ?_) fun event => ?_
  · obtain ⟨⟩ := call
    rfl
  refine .bind (g := id) (.update (fun _ _ => rfl) (fires event)) fun _ s proper => ?_
  exact (holds s proper).ensuring (fun _ => rfl) fun t later => later.trans (fires _ t later.proper)

theorem entering {s : State} (config : CallConfig) (call : Invocation) (proper : c.Proper s)
    (given : s.shared.Gave c.first call.target.toList) (holds : c.Mirrors g x y) :
    c.Agrees g s (Eval.entering config call x s)
      (Eval.entering config (call.renamed c.rename) y (s.renamed c.rename)) := by
  have frames (t : State) (later : c.Later s t) :
      c.Agrees g t
        (Eval.withFrames (config.frames call) (Eval.withNewScope
          (if config.pushesScope then call.scope else none) (Eval.traced call x)) t)
        (Eval.withFrames (config.frames (call.renamed c.rename)) (Eval.withNewScope
          (if config.pushesScope then call.scope else none)
          (Eval.traced (call.renamed c.rename) y)) (t.renamed c.rename)) := by
    rw [config.frames_renamed]
    refine withFrames later.proper ((later.gave given).subset ?_)
      (withNewScope _ (traced call holds))
    obtain ⟨self, owner, name, arity, argCount, block, scope, target, isBuiltin⟩ := call
    cases config <;> cases owner <;> simp [CallConfig.frames, Frame.identities]
  by_cases checks : config.checksArity
  · simp only [Eval.entering, checks, if_true]
    refine (Mirrors.orRaise _ s proper).bind fun _ t _ later => frames t later
  · simp only [Eval.entering, checks]
    exact frames s (.refl proper)

end brackets

section asking

variable {ask ask' : Responder} (asks : ∀ request, c.Mirrors id (ask request) (ask' request))
include asks

theorem superCall : c.Mirrors id (Eval.superCall ask) (Eval.superCall ask') := by
  refine Mirrors.currentFrame.bind fun frame => ?_
  obtain ⟨self, cls, visibility, name, block, jumpTarget, activation⟩ := frame
  cases cls with
  | none => exact .raise _
  | some cls =>
    cases name with
    | none => exact .raise _
    | some name =>
      refine Mirrors.currentEnv.bind fun env => .bind (g := id) (.read fun _ => rfl) fun args => ?_
      refine .bind (g := id) (.read fun _ => rfl) fun found => ?_
      cases found with
      | none => exact .raise _
      | some id => exact (Mirrors.setLastCall .super).bind fun _ => asks _

theorem yieldArgs (args : List Value) :
    c.Mirrors id (Eval.yieldArgs ask args) (Eval.yieldArgs ask' args) := by
  refine Mirrors.currentFrame.bind fun frame => ?_
  obtain ⟨self, cls, visibility, name, block, jumpTarget, activation⟩ := frame
  cases block with
  | none => exact .raise _
  | some id =>
    dsimp only [Frame.renamed]
    split <;> exact asks _

theorem yieldForever (block : ClosureId) (bound : Nat) :
    c.Mirrors id (Eval.yieldForever ask block bound) (Eval.yieldForever ask' block bound) := by
  induction bound with
  | zero => exact .halt .exhausted
  | succ bound ih => exact Mirrors.poll.bind fun _ => (asks _).bind fun _ => ih

theorem yieldItems (block : ClosureId) (items : Array Value) (left : Nat) :
    c.Mirrors id (Eval.yieldItems ask block items left) (Eval.yieldItems ask' block items left) := by
  induction left with
  | zero => exact .pure ()
  | succ left ih => exact Mirrors.poll.bind fun _ => (asks _).bind fun _ => ih

theorem yieldCount (block : ClosureId) (start : Int64) (count : Nat) :
    c.Mirrors id (Eval.yieldCount ask block start count)
      (Eval.yieldCount ask' block start count) := by
  induction count generalizing start with
  | zero => exact .pure ()
  | succ count ih => exact Mirrors.poll.bind fun _ => (asks _).bind fun _ => ih _

theorem instantiate (cls : ClassId) (args : List Value) (block : Option ClosureId) :
    c.Mirrors id (Eval.instantiate ask cls args block) (Eval.instantiate ask' cls args block) := by
  refine (Mirrors.newObject cls).bind fun object => ?_
  refine .bind (g := id) (.read fun _ => rfl) fun found => ?_
  cases found with
  | some id => exact (asks _).map _
  | none => exact .ite Iff.rfl (.pure object) (.raise _)

end asking

end Mirrors

namespace IsKept

variable (kept : c.IsKept)
include kept

theorem view (value : Value) : c.Mirrors id (Eval.view value) (Eval.view value) :=
  .read fun s => s.view_renamed kept.zero value

theorem raiseWith {α β : Type} {g : α → β} (error : Directory → EvalError) :
    c.Mirrors g (Eval.raiseWith fun s => error s.directory : Eval α)
      (Eval.raiseWith fun s => error s.directory : Eval β) :=
  .raiseWith fun s => congrArg error (s.directory_renamed kept.zero)

theorem closure (id : ClosureId) :
    c.Mirrors (Closure.renamed c.rename) (Eval.closure id) (Eval.closure id) :=
  .read fun s => s.shared.closure_renamed kept.zero id

theorem method (id : MethodId) :
    c.Mirrors (Method.renamed c.rename) (Eval.method id) (Eval.method id) :=
  .read fun s => s.shared.library.method_renamed kept.zero id

theorem isActive (target : Target) :
    c.Mirrors id (Eval.isActive target) (Eval.isActive (c.rename target)) :=
  .read fun s => s.context.stack.isActive_renamed (kept.injective · _)

section identities

variable {shared : Shared} (numbered : shared.Numbered c.first)
include numbered

/-- The next identity is replaced by the next one. -/
theorem freshTarget_renamed : (shared.renamed c.rename).freshTarget =
    (c.rename shared.freshTarget.1, shared.freshTarget.2.renamed c.rename) := by
  have positive : 0 < shared.nextTarget := Nat.lt_of_lt_of_le kept.first numbered.first
  simp only [Shared.freshTarget, Shared.renamed, kept.next _ positive]

theorem addClosure_renamed (body : ClosureBody) (binding : Binding) (kind : ClosureKind) :
    (shared.renamed c.rename).addClosure body (binding.renamed c.rename) kind =
      ((shared.addClosure body binding kind).1,
        (shared.addClosure body binding kind).2.renamed c.rename) := by
  have fresh := kept.freshTarget_renamed numbered
  simp only [Shared.addClosure, fresh]
  cases kind <;> simp [Shared.renamed, Shared.freshTarget, Closure.renamed, Binding.renamed,
    Frame.renamed]

theorem addMethod_renamed (f g : Target → Method)
    (same : ∀ target, g (c.rename target) = (f target).renamed c.rename) :
    (shared.renamed c.rename).addMethod g =
      ((shared.addMethod f).1, (shared.addMethod f).2.renamed c.rename) := by
  have fresh := kept.freshTarget_renamed numbered
  simp only [Shared.addMethod, fresh, same]
  simp [Shared.renamed, Shared.freshTarget, Library.addMethod, Library.renamed]

end identities

theorem newClosure {s : State} (proper : c.Proper s) (binding : Binding) (body : ClosureBody)
    (kind : ClosureKind) (captured : s.shared.Gave c.first binding.frame.identities) :
    let add (binding : Binding) : Eval ClosureId := modifyGet fun s =>
      let (id, shared) := s.shared.addClosure body binding kind
      (id, { s with shared })
    c.Agrees id s (add binding s) (add (binding.renamed c.rename) (s.renamed c.rename)) := by
  refine ⟨?_, .addClosure proper body kind captured⟩
  change EStateM.Result.ok
    ((s.shared.renamed c.rename).addClosure body (binding.renamed c.rename) kind).1
    (State.mk ((s.shared.renamed c.rename).addClosure body (binding.renamed c.rename) kind).2
      (s.context.renamed c.rename)) = _
  rw [kept.addClosure_renamed proper.shared body binding kind]
  rfl

theorem makeClosure (body : ClosureBody) (kind : ClosureKind) :
    c.Mirrors id (Eval.makeClosure body kind) (Eval.makeClosure body kind) := by
  intro s proper
  refine (Mirrors.currentFrame s proper).bind fun frame t current later => ?_
  refine (Mirrors.currentEnv t later.proper).bind fun env u _ later' => ?_
  have captured := (later.trans later').gave (proper.current current).duplicate
  exact kept.newClosure later'.proper (frame.capture env) body kind captured

theorem makeProc (literal : Literal StaticId Node) (kind : ClosureKind) :
    c.Mirrors id (Eval.makeProc literal kind) (Eval.makeProc literal kind) :=
  (kept.makeClosure _ _).map _

theorem codeToRun (source : MethodId) (name : String) :
    c.Mirrors id (Eval.codeToRun source name) (Eval.codeToRun source name) := by
  have promotes (s : State) (proper : c.Proper s) : c.Later s (s.promote source name).2 := by
    unfold State.promote
    dsimp only
    split
    · exact .changed proper (proper.shared.of_eq (Library.targets_setMethod rfl) rfl rfl)
        (Nat.le_refl _) (kept.sets rfl proper.tidy) (.setMethod rfl)
    · exact .refl proper
  have counts : c.Mirrors id (modifyGet (·.promote source name)) (modifyGet (·.promote source name)) :=
    .update (fun s _ => s.promote_renamed kept.zero source name) promotes
  refine counts.bind fun code => .bind (g := id) (.read fun _ => rfl) fun isActive => ?_
  exact .ite Iff.rfl (.pure none) (.pure code)

section library

theorem addMethod (method : Target → Method) (own : ∀ target, (method target).target = target)
    (same : ∀ target, method (c.rename target) = (method target).renamed c.rename) :
    c.Mirrors id (Eval.addMethod method) (Eval.addMethod method) := by
  refine .update (fun s proper => ?_) fun s proper => ?_
  · rw [show (s.renamed c.rename).shared = s.shared.renamed c.rename from rfl,
      kept.addMethod_renamed proper.shared method method same]
    rfl
  · exact .changed proper (proper.shared.addMethod own) (Nat.le_succ _)
      (kept.adds _ proper.tidy) (.addMethod ..)

omit kept in
/-- A method that is made has the owner that was asked for. -/
theorem addMethod_owns {method : Target → Method} {cls : ClassId} {id : MethodId} {s t : State}
    (owner : ∀ target, (method target).owner = cls)
    (added : Eval.addMethod method s = .ok id t) : t.shared.library.Owns cls id := by
  cases added
  exact owner _ ▸ s.shared.library.owns_addMethod _

theorem copyMethod (source : MethodId) (change : Method → Method)
    (target : ∀ m, (change m).target = m.target)
    (same : ∀ m, change (m.renamed c.rename) = (change m).renamed c.rename) :
    c.Mirrors id (Eval.copyMethod source change) (Eval.copyMethod source change) := by
  refine .update (fun s proper => ?_) fun s proper => ?_
  · let copy (library : Library) (t : Target) : Method := change ((library.method source).renewed t)
    have copies (t : Target) : copy (s.shared.library.renamed c.rename) (c.rename t) =
        (copy s.shared.library t).renamed c.rename := by
      simp only [copy, Library.method_renamed kept.zero]
      exact same ((s.shared.library.method source).renewed t)
    have copied := kept.addMethod_renamed proper.shared _ _ copies
    simp only [Shared.copyMethod]
    rw [show (s.renamed c.rename).shared = s.shared.renamed c.rename from rfl]
    rw [show (s.shared.renamed c.rename).library = s.shared.library.renamed c.rename from rfl, copied]
    rfl
  · exact .changed proper (proper.shared.addMethod fun t => target _) (Nat.le_succ _)
      (kept.adds _ proper.tidy) (.addMethod ..)

omit kept in
theorem copyMethod_owns {source id : MethodId} {change : Method → Method} {cls : ClassId}
    {s t : State} (owner : (change ((s.shared.library.method source).renewed
      ⟨s.shared.nextTarget⟩)).owner = cls)
    (copied : Eval.copyMethod source change s = .ok id t) : t.shared.library.Owns cls id := by
  cases copied
  exact owner ▸ s.shared.library.owns_addMethod _

theorem bindMethod {s : State} (proper : c.Proper s) {cls : ClassId} {id : MethodId}
    (owned : c.loose ∨ s.shared.library.Owns cls id) (name : String) :
    c.Agrees (fun u : Unit => u) s (Eval.bindMethod cls name id s)
      (Eval.bindMethod cls name id (s.renamed c.rename)) :=
  ⟨rfl, .library proper rfl (kept.binds name owned proper.tidy) (.modify _ _ fun _ => rfl)⟩

theorem bindSingleton {s : State} (proper : c.Proper s) {cls : ClassId} {id : MethodId}
    (owned : c.loose ∨ s.shared.library.Owns cls id) (name : String) :
    c.Agrees (fun u : Unit => u) s (Eval.bindSingleton cls name id s)
      (Eval.bindSingleton cls name id (s.renamed c.rename)) :=
  ⟨rfl, .library proper rfl (kept.bindsSingleton name owned proper.tidy) (.modify _ _ fun _ => rfl)⟩

theorem defineMethod (name : String) (definition : Definition) :
    c.Mirrors id (Eval.defineMethod name definition) (Eval.defineMethod name definition) := by
  refine Mirrors.currentFrame.bind fun frame => Mirrors.currentClass.bind fun owner => ?_
  let method (visibility : Visibility) (target : Target) : Method :=
    ⟨owner, visibility, .frameAndScope, target, .interpreted definition {}⟩
  have makes (visibility : Visibility) := kept.addMethod (method visibility) (fun _ => rfl)
    fun _ => rfl
  refine .ite Iff.rfl (fun s proper => ?_) fun s proper => ?_
  · refine (makes .priv s proper).bind fun made t added later => ?_
    have owned := addMethod_owns (fun _ => rfl) added
    refine (kept.copyMethod made
      (fun m => { m with visibility := .pub, config := .moduleFunction }) (fun _ => rfl)
      (fun _ => rfl) t later.proper).bind fun singleton u copied later' => ?_
    have owned' := copyMethod_owns owned.2 copied
    refine (kept.bindMethod later'.proper (.inr (later'.grows.owns _ _ owned)) name).bind
      fun _ v _ later'' => ?_
    refine (kept.bindSingleton later''.proper (.inr (later''.grows.owns _ _ owned')) name).bind
      fun _ w _ last => ?_
    exact Mirrors.pure _ w last.proper
  · refine (makes frame.visibility s proper).bind fun made t added later => ?_
    have owned := addMethod_owns (fun _ => rfl) added
    refine (kept.bindMethod later.proper (.inr owned) name).bind fun _ u _ last => ?_
    exact Mirrors.pure _ u last.proper

theorem changeVisibility (cls : ClassId) (visibility : Visibility) (name : String) :
    c.Mirrors id (Eval.changeVisibility cls visibility name)
      (Eval.changeVisibility cls visibility name) := by
  refine .bind (g := id) (.read fun _ => rfl) fun found => ?_
  cases found with
  | none => exact kept.raiseWith (.noMethod · name (.cls cls))
  | some source =>
    refine .ite Iff.rfl (fun s proper => ?_) fun s proper => ?_
    · refine (kept.copyMethod source (fun m => { m with owner := cls, visibility := .priv })
        (fun _ => rfl) (fun _ => rfl) s proper).bind fun copy t copied later => ?_
      have owned := copyMethod_owns rfl copied
      refine (kept.copyMethod source
        (fun m => { m with owner := cls, visibility := .pub, config := .moduleFunction })
        (fun _ => rfl) (fun _ => rfl) t later.proper).bind fun singleton u copied later' => ?_
      have owned' := copyMethod_owns rfl copied
      refine (kept.bindSingleton later'.proper (.inr owned') name).bind fun _ v _ later'' => ?_
      have owned := (later'.grows.trans later''.grows).owns _ _ owned
      exact kept.bindMethod later''.proper (.inr owned) name
    · refine (kept.copyMethod source (fun m => { m with owner := cls, visibility }) (fun _ => rfl)
        (fun _ => rfl) s proper).bind fun copy t copied later => ?_
      exact kept.bindMethod later.proper (.inr (copyMethod_owns rfl copied)) name

theorem changeAll (cls : ClassId) (visibility : Visibility) (names : List Value) :
    c.Mirrors id (Eval.changeAll cls visibility names) (Eval.changeAll cls visibility names) := by
  induction names with
  | nil => exact .pure ()
  | cons name rest ih =>
    exact (kept.view name).bind fun view =>
      (kept.changeVisibility cls visibility view.text).bind fun _ => ih

theorem applyVisibility (visibility : Visibility) (args : List Value) :
    c.Mirrors id (Eval.applyVisibility visibility args)
      (Eval.applyVisibility visibility args) :=
  .ite Iff.rfl ((Mirrors.setVisibility visibility).map _) <|
    Mirrors.currentClass.bind fun cls => (kept.changeAll cls visibility args).map _

theorem openClass (name : String) (superclass : Option String) (isModule : Bool) :
    c.Mirrors id (Eval.openClass name superclass isModule)
      (Eval.openClass name superclass isModule) := by
  intro s proper
  have same := s.shared.library.openClass_renamed c.rename name superclass isModule
  simp only [Eval.openClass, Bind.bind, EStateM.bind, Eval.read]
  rw [show (s.renamed c.rename).shared.library = s.shared.library.renamed c.rename from rfl, same]
  cases opens : s.shared.library.openClass name superclass isModule with
  | error e => exact ⟨rfl, .refl proper⟩
  | ok made =>
    refine ⟨rfl, ?_⟩
    change c.Later s { s with shared.library := made.2 }
    rcases Library.openClass_ok opens with same | rfl | ⟨parent, known, rfl⟩
    · rw [same]
      exact .refl proper
    · exact .library proper rfl (kept.definesModule name proper.tidy) (.register ..)
    · exact .library proper rfl (kept.defines name known proper.tidy) (.register ..)

end library

section operations

omit kept in
theorem leaveLive_renamed (injective : ∀ t u, c.rename t = c.rename u → t = u) (s : State)
    (target : Target) : (s.renamed c.rename).leaveLive (c.rename target) =
      (s.leaveLive target).renamed c.rename := by
  have erased := erase_renamed (injective · target) s.context.liveLiterals
  simp only [State.leaveLive, State.renamed, Context.renamed, erased]

theorem whileLive {s : State} {target : Target} (proper : c.Proper s)
    (given : s.shared.Gave c.first [target]) {x y : Eval Value} (holds : c.Mirrors id x y) :
    c.Agrees (Outcome.renamed c.rename) s (Eval.whileLive target x s)
      (Eval.whileLive (c.rename target) y (s.renamed c.rename)) := by
  have live (t : State) (proper : c.Proper t) {targets : List Target}
      (given : t.shared.Gave c.first targets) :
      c.Later t { t with context.liveLiterals := targets } :=
    .context proper (.append (proper.context.subset (List.subset_append_left ..)) given)
  have entered : c.Later s (s.enterLive target) :=
    live s proper (given.append (proper.context.subset (List.subset_append_right ..)))
  have left (t : State) (proper : c.Proper t) : c.Later t (t.leaveLive target) :=
    live t proper (proper.context.subset fun _ member =>
      List.mem_append_right _ (List.mem_of_mem_erase member))
  obtain ⟨same, later⟩ := holds _ entered.proper
  rw [whileLive_eq, whileLive_eq]
  change y ((s.renamed c.rename).enterLive (c.rename target)) = _ at same
  rw [same]
  cases result : x (s.enterLive target) with
  | ok value t =>
    rw [result] at later
    exact ⟨congrArg _ (leaveLive_renamed kept.injective t target),
      entered.trans (later.trans (left t later.proper))⟩
  | error halt t =>
    rw [result] at later
    cases halt with
    | signal g => exact ⟨congrArg _ (leaveLive_renamed kept.injective t target),
      entered.trans (later.trans (left t later.proper))⟩
    | fault | exhausted => exact ⟨rfl, entered.trans later⟩

theorem checkVisibility (m : Method) (receiver : Value) (name : String) (type : CallType) :
    c.Mirrors id (Eval.checkVisibility m receiver name type)
      (Eval.checkVisibility (m.renamed c.rename) receiver name type) := by
  obtain ⟨owner, visibility, config, target, body⟩ := m
  refine .ite Iff.rfl (.pure ()) ?_
  cases visibility with
  | priv => exact kept.raiseWith (.restricted · .callsWithoutReceiver name receiver)
  | prot =>
    refine Mirrors.currentSelf.bind fun self => ?_
    refine .bind (g := id) (.read fun _ => rfl) fun isKin => ?_
    exact .ite Iff.rfl (.pure ()) (kept.raiseWith (.restricted · .callsFromKin name receiver))
  | pub | moduleFunction => exact .pure ()

theorem methodProc (name : String) : c.Mirrors id (Eval.methodProc name) (Eval.methodProc name) := by
  refine Mirrors.currentSelf.bind fun receiver => ?_
  refine .bind (g := id) (.read fun _ => rfl) fun found => ?_
  cases found with
  | some id => exact (kept.makeClosure (.method id name) .lambda).map _
  | none => exact kept.raiseWith (.noMethod · name receiver)

theorem passedBlock (value : Value) :
    c.Mirrors id (Eval.passedBlock value) (Eval.passedBlock value) := by
  unfold Eval.passedBlock
  split
  · exact .pure none
  · exact .pure _
  · exact kept.raiseWith fun directory =>
      .runtime ("wrong argument type " ++ value.typeName directory ++ " (expected Proc)")

theorem returnValue (value : Value) :
    c.Mirrors id (Eval.returnValue value) (Eval.returnValue value) := by
  refine Mirrors.currentFrame.bind fun frame => ?_
  obtain ⟨self, cls, visibility, name, block, jumpTarget, activation⟩ := frame
  cases jumpTarget with
  | none => exact .raise _
  | some target =>
    refine (kept.isActive target).bind fun isActive => ?_
    have same := some_renamed (kept.injective · target) activation
    exact .ite (or_congr_left same) (.halt (.signal (.leave target value))) (.raise _)

theorem orphanedIf (p : Prop) [Decidable p] (target : Target) (outcome : Outcome) :
    c.Mirrors id (ofOutcome (if p then outcome.orphaned target else outcome))
      (ofOutcome (if p then (outcome.renamed c.rename).orphaned (c.rename target)
        else outcome.renamed c.rename)) := by
  rw [outcome.orphaned_renamed (kept.injective · _), ← apply_ite]
  exact .ofOutcome _

section asking

variable {ask ask' : Responder} (asks : ∀ request, c.Mirrors id (ask request) (ask' request))
include asks

theorem callMethod (receiver : Value) (name : String) (args : List Value)
    (block : Option ClosureId) (type : CallType) :
    c.Mirrors id (Eval.callMethod ask receiver name args block type)
      (Eval.callMethod ask' receiver name args block type) := by
  refine .bind (g := id) (.read fun _ => rfl) fun found => ?_
  cases found with
  | none => exact kept.raiseWith (.noMethod · name receiver)
  | some id =>
    exact (kept.method id).bind fun m => (kept.checkVisibility m receiver name type).bind fun _ =>
      (Mirrors.setLastCall type).bind fun _ => asks _

theorem callClosure (id : ClosureId) (args : List Value) :
    c.Mirrors (fun v : Value => v) (Eval.callClosure ask id args) (Eval.callClosure ask' id args) := by
  refine (kept.closure id).bind fun called => ?_
  have rest : c.Mirrors (fun v : Value => v)
      (Eval.observe (ask (.yield id { value := .array args.toArray, isPacked := true })) >>=
        fun outcome => Eval.read (·.context.liveLiterals.contains called.target) >>= fun isLive =>
          ofOutcome (if called.kind = .proc ∨ ¬isLive then outcome.orphaned called.target
            else outcome))
      (Eval.observe (ask' (.yield id { value := .array args.toArray, isPacked := true })) >>=
        fun outcome => Eval.read (·.context.liveLiterals.contains (c.rename called.target)) >>=
          fun isLive => ofOutcome (if called.kind = .proc ∨ ¬isLive
            then outcome.orphaned (c.rename called.target) else outcome)) := by
    refine (asks _).handle fun outcome => ?_
    have same (s : State) := contains_renamed (kept.injective · called.target) s.context.liveLiterals
    refine .bind (g := fun b : Bool => b) (.read same) fun isLive => ?_
    exact kept.orphanedIf _ called.target outcome
  refine .ite Iff.rfl ?_ rest
  refine .bind (g := fun a : Arity => a) (.read fun s => s.shared.arity_renamed kept.zero called)
    fun arity => (Mirrors.orRaise _).bind fun _ => rest

omit asks in
/-- The closure is live while its call runs. -/
theorem callWithLiteral (literal : Literal StaticId Node) {call call' : ClosureId → Eval Value}
    (calls : ∀ closure, c.Mirrors id (call closure) (call' closure)) :
    c.Mirrors id (Eval.callWithLiteral literal call) (Eval.callWithLiteral literal call') := by
  intro s proper
  refine (kept.makeClosure (.literal literal) .normal s proper).bind fun closure t made later => ?_
  refine (kept.closure closure t later.proper).bind fun own u looked later' => ?_
  cases looked
  have given : t.shared.Gave c.first [(t.shared.closure closure).target] := by
    obtain ⟨frame, env, -, made, rfl⟩ := makeClosure_ok made
    rw [made]
    exact proper.shared.next_given (Nat.lt_succ_self s.shared.nextTarget)
  refine (kept.whileLive later.proper given (calls closure)).bind fun outcome v _ last => ?_
  have ends := Mirrors.ofOutcome (c := c) (outcome.atLiteral (t.shared.closure closure).target)
  rw [← outcome.atLiteral_renamed (kept.injective · _)] at ends
  exact ends v last.proper

omit asks in
theorem callWithPassed (value : Value) {call call' : Option ClosureId → Eval Value}
    (calls : ∀ block, c.Mirrors id (call block) (call' block)) :
    c.Mirrors id (Eval.callWithPassed value call) (Eval.callWithPassed value call') := by
  refine (kept.passedBlock value).bind fun block => ?_
  cases block with
  | none => exact calls none
  | some id =>
    exact (kept.closure id).bind fun passed => (calls (some id)).handle fun outcome =>
      kept.orphanedIf _ passed.target outcome

end asking

section builtins

theorem wrongReceiver {α : Type} (expected : String) (found : Value) :
    c.Mirrors id (Eval.wrongReceiver expected found : Eval α) (Eval.wrongReceiver expected found) :=
  kept.raiseWith (.wrongReceiver · expected found)

omit kept in
theorem requireBlock (block : Option ClosureId) :
    c.Mirrors id (Eval.requireBlock block) (Eval.requireBlock block) := by
  cases block with
  | none => exact .raise _
  | some id => exact .pure id

theorem requireInt (value : Value) :
    c.Mirrors id (Eval.requireInt value) (Eval.requireInt value) := by
  unfold Eval.requireInt
  split
  · exact .pure _
  · exact kept.wrongReceiver "Integer" value

theorem requireArray (value : Value) :
    c.Mirrors id (Eval.requireArray value) (Eval.requireArray value) := by
  unfold Eval.requireArray
  split
  · exact .pure _
  · exact kept.wrongReceiver "Array" value

theorem requireProc (value : Value) :
    c.Mirrors id (Eval.requireProc value) (Eval.requireProc value) := by
  unfold Eval.requireProc
  split
  · exact .pure _
  · exact kept.wrongReceiver "Proc" value

theorem requireClass (value : Value) :
    c.Mirrors id (Eval.requireClass value) (Eval.requireClass value) := by
  unfold Eval.requireClass
  split
  · refine .bind (g := id) (.read fun _ => rfl) fun isModule => ?_
    exact .ite Iff.rfl (kept.wrongReceiver "Class" _) (.pure _)
  · exact kept.wrongReceiver "Class" _

theorem builtin {ask ask' : Responder} (asks : ∀ request, c.Mirrors id (ask request) (ask' request))
    (bound : Nat) (builtin : Builtin) (call : Call) :
    c.Mirrors id (builtin.run bound ask call) (builtin.run bound ask' call) := by
  cases builtin with
  | inspect => exact (kept.view call.self).map _
  | loop => exact (requireBlock _).bind fun block => Mirrors.yieldForever asks block bound
  | setVisibility visibility => exact kept.applyVisibility visibility call.args
  | new =>
    exact (kept.requireClass _).bind fun cls => Mirrors.instantiate asks cls call.args call.block
  | each =>
    exact (kept.requireArray _).bind fun items => (requireBlock _).bind fun block =>
      (Mirrors.yieldItems asks block items items.size).map _
  | size => exact (kept.requireArray _).map _
  | times =>
    exact (kept.requireInt _).bind fun count => (requireBlock _).bind fun block =>
      (Mirrors.yieldCount asks block 0 count.toInt.toNat).map _
  | callClosure => exact (kept.requireProc _).bind fun id => kept.callClosure asks id call.args
  | arity =>
    refine (kept.requireProc _).bind fun id => (kept.closure id).bind fun called => ?_
    have same (s : State) := s.shared.arity_renamed kept.zero called
    exact (Mirrors.read (g := fun a : Arity => a) same).map _
  | isLambda =>
    exact (kept.requireProc _).bind fun id => (kept.closure id).bind fun called =>
      .pure (Value.bool (called.kind = .lambda))

end builtins

theorem classBody (name : String) (superclass : Option String) (isModule : Bool)
    (scope : StaticId) {body body' : Eval Value} (runs : c.Mirrors id body body') :
    c.Mirrors id (Eval.classBody name superclass isModule scope body)
      (Eval.classBody name superclass isModule scope body') := by
  refine (kept.openClass name superclass isModule).bind fun cls => ?_
  refine ((Mirrors.storage c).enterScope scope []).bind fun env s proper => ?_
  exact Mirrors.withFrame proper (fun _ => nofun) fun t later => runs.withScope env t later.proper

end operations

end IsKept

end Mirror

end CallEngine
