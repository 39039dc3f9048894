import CallEngine.Proofs.Postconditions
/-! States under other identities. Every identity that a state holds is replaced; what has none stays
as it is. -/
namespace CallEngine

def Frame.renamed (ρ : Target → Target) (frame : Frame) : Frame :=
  { frame with
    jumpTarget := frame.jumpTarget.map ρ
    activation := frame.activation.map ρ }

def FrameStack.renamed (ρ : Target → Target) (stack : FrameStack) : FrameStack where
  frames := stack.frames.map (Frame.renamed ρ)
  depth := stack.depth
  limit := stack.limit
  depth_eq := by simp

def Binding.renamed (ρ : Target → Target) (binding : Binding) : Binding :=
  { binding with frame := binding.frame.renamed ρ }

def Closure.renamed (ρ : Target → Target) (closure : Closure) : Closure :=
  { closure with
    binding := closure.binding.renamed ρ
    target := ρ closure.target }

def Method.renamed (ρ : Target → Target) (m : Method) : Method := { m with target := ρ m.target }

def Library.renamed (ρ : Target → Target) (library : Library) : Library :=
  { library with methods := library.methods.map (Method.renamed ρ) }

/-- The next identity is replaced like all others. -/
def Shared.renamed (ρ : Target → Target) (shared : Shared) : Shared :=
  { shared with
    library := shared.library.renamed ρ
    closures := shared.closures.map (Closure.renamed ρ)
    nextTarget := (ρ ⟨shared.nextTarget⟩).serial }

def Context.renamed (ρ : Target → Target) (context : Context) : Context :=
  { context with
    stack := context.stack.renamed ρ
    liveLiterals := context.liveLiterals.map ρ }

def State.renamed (ρ : Target → Target) (s : State) : State :=
  ⟨s.shared.renamed ρ, s.context.renamed ρ⟩

def Signal.renamed (ρ : Target → Target) : Signal → Signal
  | .leave target value => .leave (ρ target) value
  | .stop target value => .stop (target.map ρ) value
  | other => other

def Outcome.renamed (ρ : Target → Target) : Outcome → Outcome
  | .ok value => .ok value
  | .error g => .error (g.renamed ρ)

def Halt.renamed (ρ : Target → Target) : Halt → Halt
  | .signal g => .signal (g.renamed ρ)
  | other => other

def Invocation.renamed (ρ : Target → Target) (call : Invocation) : Invocation :=
  { call with target := call.target.map ρ }

/-- `g` replaces what is in the value. -/
def Eval.renamedResult {α β : Type} (ρ : Target → Target) (g : α → β) :
    EStateM.Result Halt State α → EStateM.Result Halt State β
  | .ok a s => .ok (g a) (s.renamed ρ)
  | .error halt s => .error (halt.renamed ρ) (s.renamed ρ)

def Session.renamed (ρ : Target → Target) (session : Session) : Session :=
  { session with
    shared := session.shared.renamed ρ
    contexts := session.contexts.map (Context.renamed ρ) }

section composed

variable (ρ σ : Target → Target)

@[simp] theorem Frame.renamed_renamed (frame : Frame) :
    (frame.renamed ρ).renamed σ = frame.renamed (σ ∘ ρ) := by
  simp [renamed]

@[simp] theorem FrameStack.renamed_renamed (stack : FrameStack) :
    (stack.renamed ρ).renamed σ = stack.renamed (σ ∘ ρ) := by
  simp [renamed]

@[simp] theorem Closure.renamed_renamed (closure : Closure) :
    (closure.renamed ρ).renamed σ = closure.renamed (σ ∘ ρ) := by
  simp [renamed, Binding.renamed]

@[simp] theorem Shared.renamed_renamed (shared : Shared) :
    (shared.renamed ρ).renamed σ = shared.renamed (σ ∘ ρ) := by
  simp [renamed, Library.renamed, Method.renamed, Function.comp_def]

@[simp] theorem Context.renamed_renamed (context : Context) :
    (context.renamed ρ).renamed σ = context.renamed (σ ∘ ρ) := by
  simp [renamed]

@[simp] theorem State.renamed_renamed (s : State) :
    (s.renamed ρ).renamed σ = s.renamed (σ ∘ ρ) := by
  simp [renamed]

@[simp] theorem Session.renamed_renamed (session : Session) :
    (session.renamed ρ).renamed σ = session.renamed (σ ∘ ρ) := by
  simp [renamed, Function.comp_def]

@[simp] theorem Signal.renamed_renamed (g : Signal) :
    (g.renamed ρ).renamed σ = g.renamed (σ ∘ ρ) := by
  cases g <;> simp [renamed]

@[simp] theorem Halt.renamed_renamed (halt : Halt) :
    (halt.renamed ρ).renamed σ = halt.renamed (σ ∘ ρ) := by
  cases halt <;> simp [renamed]

theorem Eval.renamedResult_renamedResult {α : Type} (result : EStateM.Result Halt State α) :
    renamedResult σ id (renamedResult ρ id result) = renamedResult (σ ∘ ρ) id result := by
  cases result <;> simp [renamedResult]

end composed

section unchanged

theorem Frame.renamed_id : Frame.renamed id = id := by
  funext frame
  simp [renamed]

theorem Closure.renamed_id : Closure.renamed id = id := by
  funext closure
  simp [renamed, Binding.renamed, Frame.renamed_id]

@[simp] theorem FrameStack.renamed_id (stack : FrameStack) : stack.renamed id = stack :=
  FrameStack.eq_of_frames (by simp [renamed, Frame.renamed_id]) rfl

@[simp] theorem Library.renamed_id (library : Library) : library.renamed id = library := by
  have methods : Method.renamed id = id := rfl
  simp [renamed, methods]

@[simp] theorem State.renamed_id (s : State) : s.renamed id = s := by
  simp [renamed, Shared.renamed, Context.renamed, Closure.renamed_id]

@[simp] theorem Signal.renamed_id (g : Signal) : g.renamed id = g := by
  cases g <;> simp [renamed]

@[simp] theorem Halt.renamed_id (halt : Halt) : halt.renamed id = halt := by
  cases halt <;> simp [renamed]

theorem Eval.renamedResult_id {α : Type} (result : EStateM.Result Halt State α) :
    renamedResult id id result = result := by
  cases result <;> simp [renamedResult]

end unchanged

namespace FrameStack

variable (ρ : Target → Target) (stack : FrameStack)

theorem current_renamed :
    (stack.renamed ρ).current = stack.current.map (Frame.renamed ρ) := by
  unfold current
  rw [show (stack.renamed ρ).frames = stack.frames.map (Frame.renamed ρ) from rfl]
  cases stack.frames <;> rfl

theorem push_renamed (frame : Frame) :
    (stack.renamed ρ).push (frame.renamed ρ) = (stack.push frame).map (renamed ρ) := by
  unfold push
  rw [show (stack.renamed ρ).limit = stack.limit from rfl,
    show (stack.renamed ρ).depth = stack.depth from rfl]
  cases stack.limit with
  | none => rfl
  | some limit =>
    dsimp only
    split <;> rfl

theorem drop_renamed : (stack.renamed ρ).drop = stack.drop.renamed ρ :=
  eq_of_frames List.map_tail.symm rfl

theorem withVisibility_renamed (visibility : Visibility) :
    (stack.renamed ρ).withVisibility visibility = (stack.withVisibility visibility).renamed ρ := by
  refine eq_of_frames ?_ rfl
  change (stack.frames.map _).modifyHead _ = (stack.frames.modifyHead _).map _
  cases stack.frames <;> rfl

theorem backtrace_renamed : (stack.renamed ρ).backtrace = stack.backtrace := by
  change (stack.frames.map (Frame.renamed ρ)).filterMap (·.name) = _
  rw [List.filterMap_map]
  rfl

end FrameStack

theorem CallConfig.frames_renamed (config : CallConfig) (ρ : Target → Target) (call : Invocation) :
    config.frames (call.renamed ρ) = (config.frames call).map (Frame.renamed ρ) := by
  obtain ⟨self, owner, name, arity, argCount, block, scope, target, isBuiltin⟩ := call
  cases config <;> cases owner <;> rfl

theorem Method.invocation_renamed (m : Method) (ρ : Target → Target) (call : Call) :
    (m.renamed ρ).invocation call = (m.invocation call).renamed ρ := by
  obtain ⟨owner, visibility, config, target, body⟩ := m
  cases body <;> rfl

theorem Closure.frame_renamed (closure : Closure) (ρ : Target → Target) (delivery : Delivery) :
    (closure.renamed ρ).frame delivery = (closure.frame delivery).renamed ρ := by
  obtain ⟨body, binding, target, kind⟩ := closure
  cases kind <;> rfl

theorem Outcome.surfaced_renamed (ρ : Target → Target) (outcome : Outcome) :
    (outcome.renamed ρ).surfaced = outcome.surfaced.renamed ρ := by
  rcases outcome with g | value
  · cases g <;> rfl
  · rfl

theorem Outcome.traced_renamed (ρ : Target → Target) (outcome : Outcome) (stack : FrameStack) :
    (outcome.renamed ρ).traced (stack.renamed ρ) = (outcome.traced stack).renamed ρ := by
  rcases outcome with g | value
  · cases g with
    | error e =>
      change (if e.backtrace.isEmpty then _ else _) = renamed ρ (if e.backtrace.isEmpty then _ else _)
      rw [FrameStack.backtrace_renamed]
      split <;> rfl
    | _ => rfl
  · rfl

section alone

variable {ρ : Target → Target} {target : Target} (alone : ∀ t, ρ t = ρ target → t = target)
include alone

theorem some_renamed (own : Option Target) :
    own.map ρ = some (ρ target) ↔ own = some target := by
  cases own with
  | none => simp
  | some other =>
    simp only [Option.map_some, Option.some.injEq]
    exact ⟨alone other, congrArg ρ⟩

theorem FrameStack.isActive_renamed (stack : FrameStack) :
    (stack.renamed ρ).isActive (ρ target) = stack.isActive target := by
  change (stack.frames.map (Frame.renamed ρ)).any _ = stack.frames.any _
  rw [List.any_map]
  refine congrArg stack.frames.any (funext fun frame => ?_)
  exact decide_eq_decide.2 (some_renamed alone frame.activation)

theorem contains_renamed (targets : List Target) :
    (targets.map ρ).contains (ρ target) = targets.contains target := by
  induction targets with
  | nil => rfl
  | cons other rest ih =>
    have same : (ρ target == ρ other) = (target == other) :=
      by
      refine Bool.eq_iff_iff.2 ?_
      simp only [beq_iff_eq]
      exact ⟨fun same => (alone other same.symm).symm, congrArg ρ⟩
    rw [List.map_cons, List.contains_cons, List.contains_cons, ih, same]

theorem erase_renamed (targets : List Target) :
    (targets.map ρ).erase (ρ target) = (targets.erase target).map ρ := by
  induction targets with
  | nil => rfl
  | cons other rest ih =>
    have same : ρ other = ρ target ↔ other = target := ⟨alone _, congrArg ρ⟩
    simp only [List.map_cons, List.erase_cons, beq_iff_eq, same]
    split
    · rfl
    · rw [List.map_cons, ih]

namespace Outcome

theorem atMethod_renamed (outcome : Outcome) :
    (outcome.renamed ρ).atMethod (ρ target) = (outcome.atMethod target).renamed ρ := by
  rcases outcome with g | value
  · cases g with
    | leave aim value =>
      change (if ρ aim = ρ target then _ else _) = renamed ρ (if aim = target then _ else _)
      by_cases own : aim = target
      · simp only [own, if_true]
        rfl
      · simp only [own, mt (alone aim) own, if_false]
        rfl
    | stop aim value => cases aim <;> rfl
    | _ => rfl
  · rfl

/-- Breaks that are claimed for `target` are told from all others. -/
theorem claimed_renamed (aim : Target) (value : Value) {own : Outcome}
    (closed : own.renamed ρ = own) :
    (if ρ aim = ρ target then own else .error (.stop (some (ρ aim)) value)) =
      renamed ρ (if aim = target then own else .error (.stop (some aim) value)) := by
  by_cases same : aim = target
  · simp only [same, if_true, closed]
  · simp only [same, mt (alone aim) same, if_false]
    rfl

theorem atLiteral_renamed (outcome : Outcome) :
    (outcome.renamed ρ).atLiteral (ρ target) = (outcome.atLiteral target).renamed ρ := by
  rcases outcome with g | value
  · cases g with
    | stop aim value =>
      cases aim with
      | none => rfl
      | some aim => exact claimed_renamed alone aim value rfl
    | _ => rfl
  · rfl

theorem orphaned_renamed (outcome : Outcome) :
    (outcome.renamed ρ).orphaned (ρ target) = (outcome.orphaned target).renamed ρ := by
  rcases outcome with g | value
  · cases g with
    | stop aim value =>
      cases aim with
      | none => rfl
      | some aim => exact claimed_renamed alone aim value rfl
    | _ => rfl
  · rfl

theorem atClosure_renamed (kind : ClosureKind) (outcome : Outcome) :
    (outcome.renamed ρ).atClosure (ρ target) kind = (outcome.atClosure target kind).renamed ρ := by
  rcases outcome with g | value
  · cases g with
    | leave aim value =>
      change (if kind = .lambda ∧ ρ aim = ρ target then _ else _) =
        renamed ρ (if kind = .lambda ∧ aim = target then _ else _)
      have same : ρ aim = ρ target ↔ aim = target := ⟨alone _, congrArg ρ⟩
      simp only [same]
      split <;> rfl
    | stop aim value =>
      cases aim with
      | some aim => rfl
      | none =>
        change (if kind = .lambda then _ else _) = renamed ρ (if kind = .lambda then _ else _)
        split <;> rfl
    | _ => rfl
  · rfl

end Outcome

end alone

section fixed

variable {ρ : Target → Target} (zero : ρ ⟨0⟩ = ⟨0⟩)
include zero

theorem Library.method_renamed (library : Library) (id : MethodId) :
    (library.renamed ρ).method id = (library.method id).renamed ρ := by
  simp only [Library.method, renamed, Array.getD_eq_getD_getElem?, Array.getElem?_map]
  cases library.methods[id]? with
  | some m => rfl
  | none => exact congrArg (Method.mk default default default · default) zero.symm

theorem Shared.closure_renamed (shared : Shared) (id : ClosureId) :
    (shared.renamed ρ).closure id = (shared.closure id).renamed ρ := by
  simp only [Shared.closure, renamed, Array.getD_eq_getD_getElem?, Array.getElem?_map]
  cases shared.closures[id]? with
  | some closure => rfl
  | none => exact congrArg (Closure.mk default default · default) zero.symm

theorem Shared.arity_renamed (shared : Shared) (closure : Closure) :
    (shared.renamed ρ).arity (closure.renamed ρ) = shared.arity closure := by
  obtain ⟨body, binding, target, kind⟩ := closure
  cases body with
  | literal => rfl
  | method id name =>
    change ((shared.library.renamed ρ).method id).arity = (shared.library.method id).arity
    rw [Library.method_renamed zero]
    rfl

theorem State.directory_renamed (s : State) : (s.renamed ρ).directory = s.directory := by
  have views : (s.shared.renamed ρ).closureView = s.shared.closureView := by
    funext id
    change (⟨_, (s.shared.renamed ρ).arity ((s.shared.renamed ρ).closure id), _⟩ : ClosureView) = _
    rw [Shared.closure_renamed zero, Shared.arity_renamed zero]
    rfl
  simp only [State.directory]
  rw [show (s.renamed ρ).shared.closureView = _ from views]
  rfl

theorem State.view_renamed (s : State) (value : Value) : (s.renamed ρ).view value = s.view value :=
  congrArg (Value.view · value) (s.directory_renamed zero)

end fixed

end CallEngine
