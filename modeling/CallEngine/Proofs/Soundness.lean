import CallEngine.Proofs.Promotion
import CallEngine.Proofs.Shapes
/-! Trees that address only variables which their scopes have run without a fault. -/
namespace CallEngine
open StaticScope (sizing Persist)

namespace Tree

variable {z : Sizing StaticId} {sizes : List Nat}

theorem isScoped_of_mem {items : List Node} (fits : allScoped z sizes items) {item : Node}
    (member : item ∈ items) : item.isScoped z sizes := by
  induction items with
  | nil => cases member
  | cons first rest ih =>
    simp only [allScoped, Bool.and_eq_true] at fits
    rcases List.mem_cons.1 member with rfl | member
    · exact fits.1
    · exact ih fits.2 member

theorem isScoped_of_mem_option {operand : Option Node} (fits : optionScoped z sizes operand)
    {value : Node} (member : value ∈ operand.toList) : value.isScoped z sizes := by
  cases Option.mem_toList.1 member
  exact fits

theorem isScoped_of_mem_block {block : BlockArg (Literal StaticId Node) Node}
    (fits : blockScoped z sizes block) {part : Node} (member : part ∈ blockOperands block) :
    part.isScoped z sizes := by
  cases block with
  | absent => cases member
  | literal | pass =>
    cases List.mem_singleton.1 member
    exact fits

theorem isScoped_of_part {node part : Node} (fits : node.isScoped z sizes)
    (member : part ∈ node.operands) : part.isScoped z sizes := by
  cases node with
  | array | seq | yield => exact isScoped_of_mem fits member
  | doReturn | doBreak | doNext => exact isScoped_of_mem_option fits member
  | globalSet | raise | makeLambda =>
    cases List.mem_singleton.1 member
    exact fits
  | localSet | binary | loop | rescue =>
    simp only [isScoped, Bool.and_eq_true] at fits
    simp only [operands, List.mem_cons, List.not_mem_nil, or_false] at member
    rcases member with rfl | rfl
    · exact fits.1
    · exact fits.2
  | cond test yes no =>
    simp only [isScoped, Bool.and_eq_true] at fits
    simp only [operands, List.mem_cons] at member
    rcases member with rfl | rfl | member
    · exact fits.1.1
    · exact fits.1.2
    · exact isScoped_of_mem_option fits.2 member
  | call receiver name args block =>
    simp only [isScoped, Bool.and_eq_true] at fits
    simp only [operands, List.mem_append] at member
    rcases member with (member | member) | member
    · exact isScoped_of_mem_option fits.1.1 member
    · exact isScoped_of_mem fits.1.2 member
    · exact isScoped_of_mem_block fits.2 member
  | _ => cases member

end Tree

/-- The parameters and the body of a method fit its scope. -/
def Definition.isScoped (z : Array StaticScope) (definition : Definition) : Bool :=
  ((sizing z).method definition.scope).any fun size =>
    Tree.paramsScoped (sizing z) size definition.params &&
      definition.body.isScoped (sizing z) [size]

/-- A method whose body is a tree gets a scope of its own that the tree fits. -/
def Method.Scoped (z : Array StaticScope) (m : Method) : Prop :=
  match m.body with
  | .interpreted definition _ => m.config.pushesScope ∧ definition.isScoped z
  | .compiled .. => False
  | .builtin _ => True

/-- A literal fits the environment that the closure was made in. -/
def Closure.Scoped (m : Memory) (closure : Closure) : Prop :=
  ∀ literal, closure.body = .literal literal →
    ∃ sizes, m.Shapes closure.binding.env sizes ∧
      Tree.literalScoped (sizing m.statics) sizes literal

/-- Everything that can come to be run fits the scopes `z`. -/
structure Sound (z : Array StaticScope) (shared : Shared) : Prop where
  statics : shared.memory.statics = z
  stored : shared.memory.Stored
  closures : ∀ id, (shared.closure id).Scoped shared.memory
  methods : ∀ id, (shared.library.method id).Scoped z
  faithful : shared.Faithful

/-- There is a frame, and the innermost environment has those sizes. -/
structure State.Stands (s : State) (env : Env) (sizes : List Nat) : Prop where
  frames : s.context.stack.frames ≠ []
  scopes : s.context.scopes.head? = some env
  shapes : s.shared.memory.Shapes env sizes

structure Later (z : Array StaticScope) (s s' : State) : Prop where
  sound : Sound z s'.shared
  grows : s.shared.memory.Grows s'.shared.memory
  kept : Kept s.context s'.context

def EndsSafely {α : Type} (z : Array StaticScope) (s : State) : EStateM.Result Halt State α → Prop
  | .error (.fault _) _ => False
  | .ok _ s' | .error _ s' => Later z s s'

/-- Run in an environment of those sizes, there is no fault. -/
def Safe (z : Array StaticScope) (env : Env) (sizes : List Nat) : EvalProperty := fun _ x =>
  ∀ s, Sound z s.shared → s.Stands env sizes → EndsSafely z s (x s)

theorem Method.scoped_plain {z : Array StaticScope} {m m' : Method} (same : m.plain = m'.plain)
    (fits : m.Scoped z) : m'.Scoped z := by
  obtain ⟨owner, visibility, config, target, body⟩ := m
  obtain ⟨owner', visibility', config', target', body'⟩ := m'
  cases body <;> cases body' <;> cases same <;> exact fits

theorem Method.Copies.scoped {z : Array StaticScope} {copy m : Method} (copies : copy.Copies m)
    (fits : m.Scoped z) : copy.Scoped z := by
  obtain ⟨owner, visibility, config, target, body⟩ := m
  obtain ⟨owner', visibility', config', target', body'⟩ := copy
  obtain ⟨same, configs⟩ := copies
  cases body with
  | interpreted definition promotion =>
    cases same
    refine ⟨?_, fits.2⟩
    rcases configs with rfl | rfl
    · exact fits.1
    · rfl
  | compiled => exact fits.elim
  | builtin =>
    cases same
    trivial

theorem Shared.closure_addClosure (shared : Shared) (body : ClosureBody) (binding : Binding)
    (kind : ClosureKind) (id : ClosureId) :
    (shared.addClosure body binding kind).2.closure id = shared.closure id ∨
      ((shared.addClosure body binding kind).2.closure id).body = body ∧
        ((shared.addClosure body binding kind).2.closure id).binding.env = binding.env := by
  simp only [Shared.addClosure, Shared.freshTarget, Shared.closure, Array.getD_eq_getD_getElem?,
    Array.getElem?_push]
  split
  · exact .inr ⟨rfl, rfl⟩
  · exact .inl rfl

theorem Closure.Scoped.mono {m m' : Memory} {closure : Closure} (fits : closure.Scoped m)
    (grows : m.Grows m') (persist : Persist m.statics m'.statics) : closure.Scoped m' := by
  intro literal body
  obtain ⟨sizes, shapes, fit⟩ := fits literal body
  exact ⟨sizes, shapes.mono grows, Tree.literalScoped_mono persist.sizing literal fit⟩

namespace Later

variable {z : Array StaticScope} {s t u : State}

theorem refl (sound : Sound z s.shared) : Later z s s := ⟨sound, .refl _, .refl _⟩

theorem trans (first : Later z s t) (second : Later z t u) : Later z s u :=
  ⟨second.sound, first.grows.trans second.grows, first.kept.trans second.kept⟩

theorem ends {α : Type} {result : EStateM.Result Halt State α} (first : Later z s t)
    (second : EndsSafely z t result) : EndsSafely z s result := by
  match result with
  | .ok _ _ => exact first.trans second
  | .error (.signal _) _ | .error .exhausted _ => exact first.trans second
  | .error (.fault _) _ => exact second

theorem stands {env : Env} {sizes : List Nat} (later : Later z s t) (stands : s.Stands env sizes) :
    t.Stands env sizes where
  frames := by
    obtain ⟨v, stack⟩ := later.kept.stack
    rw [stack]
    intro none
    exact stands.frames (List.length_eq_zero_iff.1 (List.length_modifyHead.symm.trans
      (congrArg List.length none)))
  scopes := later.kept.scopes ▸ stands.scopes
  shapes := stands.shapes.mono later.grows

end Later

namespace EndsSafely

variable {z : Array StaticScope} {s : State}

theorem bind {α β : Type} {x : Eval α} {f : α → Eval β} {t : State} (first : EndsSafely z s (x t))
    (rest : ∀ a t, Later z s t → EndsSafely z t (f a t)) : EndsSafely z s ((x >>= f) t) := by
  simp only [Bind.bind, EStateM.bind]
  cases result : x t with
  | ok a t =>
    rw [result] at first
    exact first.ends (rest a t first)
  | error halt t =>
    rw [result] at first
    cases halt <;> exact first

theorem ofOutcome (outcome : Outcome) (sound : Sound z s.shared) :
    EndsSafely z s (Eval.ofOutcome outcome s) := by
  cases outcome <;> exact .refl sound

theorem observe {body : Eval Value} (ends : EndsSafely z s (body s)) :
    EndsSafely z s (Eval.observe body s) := by
  unfold Eval.observe
  cases result : body s with
  | ok value t =>
    rw [result] at ends
    exact ends
  | error halt t =>
    rw [result] at ends
    cases halt <;> exact ends

theorem surfaced {body : Eval Value} (ends : EndsSafely z s (body s)) :
    EndsSafely z s (Engine.surfaced body s) :=
  ends.observe.bind fun _ _ later => ofOutcome _ later.sound

end EndsSafely

theorem Sound.of_eq {z : Array StaticScope} {shared shared' : Shared} (sound : Sound z shared)
    (memory : shared'.memory = shared.memory) (closures : shared'.closures = shared.closures)
    (library : shared'.library = shared.library) (backend : shared'.backend = shared.backend)
    (config : shared'.config = shared.config) : Sound z shared' where
  statics := memory ▸ sound.statics
  stored := memory ▸ sound.stored
  closures id := by
    rw [memory, Shared.closure, closures]
    exact sound.closures id
  methods id := library ▸ sound.methods id
  faithful := ⟨config ▸ backend ▸ sound.faithful.backend, library ▸ sound.faithful.methods⟩

/-- Counting calls makes no difference to what methods run. -/
theorem Sound.promote {z : Array StaticScope} {s : State} (sound : Sound z s.shared) (id : MethodId)
    (name : String) : Later z s (s.promote id name).2 := by
  have plain := s.promote_plain id name
  have memory : (s.promote id name).2.shared.memory = s.shared.memory :=
    (congrArg (fun s : State => s.shared.memory) plain :)
  have closures : (s.promote id name).2.shared.closures = s.shared.closures :=
    (congrArg (fun s : State => s.shared.closures) plain :)
  have context : (s.promote id name).2.context = s.context := (congrArg State.context plain :)
  refine ⟨⟨memory ▸ sound.statics, memory ▸ sound.stored, fun other => ?_, fun other => ?_,
    s.promote_faithful id name sound.faithful⟩, memory ▸ .refl _, context ▸ .refl _⟩
  · rw [memory, Shared.closure, closures]
    exact sound.closures other
  · have same := (Blind.method other).plain (s.promote id name).2
    rw [plain, (Blind.method other).plain s] at same
    exact Method.scoped_plain same (sound.methods other)

theorem Sound.memory {z : Array StaticScope} {shared : Shared} {m : Memory} (sound : Sound z shared)
    (grows : shared.memory.Grows m) (stored : m.Stored) (statics : m.statics = z) :
    Sound z { shared with memory := m } where
  statics := statics
  stored := stored
  closures id := (sound.closures id).mono grows (by rw [statics, sound.statics]; exact .refl z)
  methods := sound.methods
  faithful := ⟨sound.faithful.backend, sound.faithful.methods⟩

theorem Definition.isScoped_mono {z z' : Array StaticScope} (persist : Persist z z')
    {definition : Definition} (fits : definition.isScoped z) : definition.isScoped z' := by
  simp only [Definition.isScoped, Option.any_eq_true, Bool.and_eq_true] at fits ⊢
  obtain ⟨size, known, inParams, inBody⟩ := fits
  exact ⟨size, persist.sizing.method known, Tree.paramsScoped_mono persist.sizing _ inParams,
    Tree.isScoped_mono persist.sizing _ inBody⟩

theorem Sound.persist {z : Array StaticScope} {shared : Shared} {m : Memory}
    (sound : Sound z shared) (cells : m.cells = shared.memory.cells)
    (persist : Persist z m.statics) :
    Sound m.statics { shared with memory := m } where
  statics := rfl
  stored := sound.stored.persist cells (sound.statics ▸ persist)
  closures id := by
    have persist : Persist shared.memory.statics m.statics := sound.statics ▸ persist
    exact (sound.closures id).mono (Memory.grows_of_persist cells persist) persist
  methods id := by
    have fits := sound.methods id
    unfold Method.Scoped at fits ⊢
    split
    · next body =>
      rw [body] at fits
      exact ⟨fits.1, Definition.isScoped_mono persist fits.2⟩
    · next body => rwa [body] at fits
    · trivial
  faithful := ⟨sound.faithful.backend, sound.faithful.methods⟩

namespace Safe

variable {z : Array StaticScope} {env : Env} {sizes : List Nat}

theorem pure {α : Type} (a : α) : Safe z env sizes (Pure.pure a) := fun _ sound _ => .refl sound

theorem bind {α β : Type} {x : Eval α} {f : α → Eval β} (first : Safe z env sizes x)
    (rest : ∀ a, Safe z env sizes (f a)) : Safe z env sizes (x >>= f) :=
  fun s sound stands => (first s sound stands).bind fun a t later =>
    rest a t later.sound (later.stands stands)

theorem read {α : Type} (view : State → α) : Safe z env sizes (Eval.read view) :=
  fun _ sound _ => .refl sound

theorem signal {α : Type} (g : Signal) : Safe z env sizes (Eval.signal g : Eval α) :=
  fun _ sound _ => .refl sound

theorem exhausted {α : Type} : Safe z env sizes (throw .exhausted : Eval α) :=
  fun _ sound _ => .refl sound

/-- Where the state says that something is there, it is found. -/
theorem found {α β : Type} {view : State → Except Fault α} {f : α → Eval β}
    (there : ∀ s, Sound z s.shared → s.Stands env sizes → ∃ a, view s = .ok a)
    (rest : ∀ a, Safe z env sizes (f a)) :
    Safe z env sizes (Eval.read view >>= fun result => Eval.orFault result >>= f) := by
  intro s sound stands
  obtain ⟨a, here⟩ := there s sound stands
  simp only [Bind.bind, EStateM.bind, Eval.read, here]
  exact rest a s sound stands

theorem update {α : Type} {f : State → α × State}
    (sound : ∀ s, Sound z s.shared → s.Stands env sizes → Sound z (f s).2.shared)
    (grows : ∀ s : State, Sound z s.shared → s.shared.memory.Grows (f s).2.shared.memory)
    (kept : ∀ s : State, Kept s.context (f s).2.context) : Safe z env sizes (modifyGet f) :=
  fun s before stands => ⟨sound s before stands, grows s before, kept s⟩

theorem ofOutcome (outcome : Outcome) : Safe z env sizes (Eval.ofOutcome outcome) :=
  fun _ sound _ => .ofOutcome outcome sound

theorem currentFrame : Safe z env sizes Eval.currentFrame := by
  have holds : Safe z env sizes (Eval.currentFrame >>= Pure.pure) := by
    refine found (fun s _ stands => ?_) pure
    unfold FrameStack.current
    cases frames : s.context.stack.frames with
    | nil => exact absurd frames stands.frames
    | cons frame rest => exact ⟨frame, rfl⟩
  rwa [bind_pure] at holds

theorem currentEnv {α : Type} {k : Env → Eval α} (holds : Safe z env sizes (k env)) :
    Safe z env sizes (Eval.currentEnv >>= k) := by
  intro s sound stands
  have scopes := stands.scopes
  cases inner : s.context.scopes with
  | nil =>
    rw [inner] at scopes
    cases scopes
  | cons head rest =>
    rw [inner] at scopes
    cases scopes
    simp only [Bind.bind, EStateM.bind, Eval.currentEnv_cons inner]
    exact holds s sound stands

theorem readVariable {offset depth : Nat} (has : hasVariable sizes offset depth) :
    Safe z env sizes (Eval.readVariable env offset depth) := by
  have holds : Safe z env sizes (Eval.readVariable env offset depth >>= Pure.pure) :=
    found (fun _ sound stands => stands.shapes.read sound.stored has) pure
  rwa [bind_pure] at holds

theorem rewrite {f : Memory → Memory} (rewrites : ∀ m, Memory.Rewrites m (f m)) :
    Safe z env sizes (modify fun s => { s with shared.memory := f s.shared.memory }) :=
  update (fun _ sound _ => sound.memory (rewrites _).grows ((rewrites _).stored sound.stored)
      ((rewrites _).statics.trans sound.statics))
    (fun _ _ => (rewrites _).grows) fun s => .refl s.context

theorem writeVariable {offset depth : Nat} (value : Value) (has : hasVariable sizes offset depth) :
    Safe z env sizes (Eval.writeVariable env offset depth value) :=
  found (fun _ sound stands => stands.shapes.writable sound.stored has) fun id =>
    rewrite fun m => .put m id offset value

theorem writeArguments (values : List Value) {count : Nat}
    (has : count ≠ 0 → hasVariable sizes 0 0) :
    Safe z env sizes (Eval.writeArguments env values count) := by
  unfold Eval.writeArguments
  split
  · exact pure ()
  · next positive =>
    have there (s : State) (sound : Sound z s.shared) (stands : s.Stands env sizes) :
        ∃ id, s.shared.memory.innermost env = .ok id :=
      stands.shapes.innermost sound.stored (has positive)
    exact found there fun id => rewrite fun m => .change m id _

theorem setVisibility (visibility : Visibility) :
    Safe z env sizes (Eval.setVisibility visibility) := by
  intro s sound stands
  simp only [Eval.setVisibility, Bind.bind, EStateM.bind, Eval.read]
  cases set : s.context.stack.setVisibility visibility with
  | ok changed =>
    exact ⟨sound, .refl _, ⟨visibility, FrameStack.setVisibility_eq set⟩, rfl⟩
  | error fault =>
    unfold FrameStack.setVisibility at set
    split at set
    · cases set
    · next frames => exact absurd frames stands.frames

theorem returnValue (value : Value) : Safe z env sizes (Eval.returnValue value) := by
  refine currentFrame.bind fun frame => ?_
  split
  · exact signal _
  · refine (read _).bind fun isActive => ?_
    split <;> exact signal _

theorem poll : Safe z env sizes Eval.poll := by
  refine (read _).bind fun isPending => ?_
  split
  · refine bind (update ?_ (fun s _ => .refl _) fun s => .refl s.context) fun _ => signal _
    exact fun s sound _ => sound.of_eq rfl rfl rfl rfl rfl
  · exact pure ()

theorem observe {body : Eval Value} (holds : Safe z env sizes body) :
    Safe z env sizes (Eval.observe body) :=
  fun s sound stands => (holds s sound stands).observe

theorem whileLive {target : Target} {body : Eval Value} (holds : Safe z env sizes body) :
    Safe z env sizes (Eval.whileLive target body) := by
  have live (f : List Target → List Target) : Safe z env sizes (modify fun s =>
      { s with context.liveLiterals := f s.context.liveLiterals }) :=
    update (fun _ sound _ => sound) (fun _ _ => .refl _) fun s =>
      ⟨s.context.stack.withVisibility_self, rfl⟩
  exact (live (target :: ·)).bind fun _ => holds.observe.bind fun outcome =>
    (live (·.erase target)).bind fun _ => pure outcome

theorem handle {γ : Type} {x : Eval Outcome} {view : State → γ} {k : Outcome → γ → Eval Value}
    (holds : Safe z env sizes x)
    (handled : ∀ outcome c, Handled (Safe z env sizes) outcome (k outcome c)) :
    Safe z env sizes (x >>= fun outcome => Eval.read view >>= k outcome) := by
  exact holds.bind fun outcome => (read view).bind fun c =>
    (handled outcome c).holds (ofOutcome outcome)

theorem quiet {α : Type} {f : State → α × State} (quiet : Quiet f) :
    Safe z env sizes (modifyGet f) := by
  refine update (fun s sound _ => ⟨?_, ?_, ?_, ?_, ?_⟩) (fun s _ => ?_) fun s => ?_
  · exact quiet.memory s ▸ sound.statics
  · exact quiet.memory s ▸ sound.stored
  · intro id
    rw [quiet.memory, Shared.closure, quiet.closures]
    exact sound.closures id
  · intro id
    rcases quiet.copies s id with same | ⟨other, copies⟩
    · exact same ▸ sound.methods id
    · exact copies.scoped (sound.methods other)
  · exact quiet.toLocal.faithful s sound.faithful
  · rw [quiet.memory]
    exact .refl _
  · exact (quiet.toLocal.restored s).toKept

/-- A closure remembers the innermost environment. -/
theorem makeClosure {body : ClosureBody} (kind : ClosureKind)
    (fits : ∀ literal, body = .literal literal → Tree.literalScoped (sizing z) sizes literal) :
    Safe z env sizes (Eval.makeClosure body kind) := by
  refine currentFrame.bind fun frame => currentEnv ?_
  refine update (fun s sound stands => ?_) (fun s _ => .refl _) fun s => .refl s.context
  refine ⟨sound.statics, sound.stored, fun id => ?_, sound.methods,
    ⟨sound.faithful.backend, sound.faithful.methods⟩⟩
  rcases s.shared.closure_addClosure body _ kind id with same | ⟨own, binding⟩
  · exact same ▸ sound.closures id
  · intro literal made
    rw [binding]
    exact ⟨sizes, stands.shapes, sound.statics ▸ fits literal (own.symm.trans made)⟩

theorem makeLiteral {literal : Literal StaticId Node} (kind : ClosureKind)
    (fits : Tree.literalScoped (sizing z) sizes literal) :
    Safe z env sizes (Eval.makeClosure (.literal literal) kind) := by
  refine makeClosure kind fun own same => ?_
  cases same
  exact fits

theorem control : Control (Safe z env sizes) where
  pure := pure
  bind := bind
  read _ := read _
  exhausted := exhausted
  raise _ := signal _
  poll := poll
  visibility := setVisibility
  observe := observe
  live holds := (read _).bind fun _ => (whileLive holds).bind fun _ => ofOutcome _
  handle holds _ := handle holds.runs
  frame := currentFrame
  env := by
    have holds : Safe z env sizes (Eval.currentEnv >>= Pure.pure) := currentEnv (pure env)
    rwa [bind_pure] at holds
  quiet := quiet
  methodClosure id name := makeClosure .lambda fun _ => nofun

end Safe

namespace EndsSafely

variable {α : Type} {z : Array StaticScope} {s : State}

theorem ensuring {body : Eval α} {after : State → State} {inner : State}
    (ends : EndsSafely z inner (body inner))
    (undo : ∀ t, Later z inner t → Later z s (after t)) :
    EndsSafely z s (Eval.ensuring body after inner) := by
  unfold Eval.ensuring
  cases result : body inner with
  | ok a t =>
    rw [result] at ends
    exact undo t ends
  | error halt t =>
    rw [result] at ends
    cases halt with
    | signal | exhausted => exact undo t ends
    | fault => exact ends

theorem withFrame {frame : Frame} {body : Eval α} (sound : Sound z s.shared)
    (ends : ∀ inner : State, inner.shared = s.shared → inner.context.stack.frames ≠ [] →
      inner.context.scopes = s.context.scopes → EndsSafely z inner (body inner)) :
    EndsSafely z s (Eval.withFrame frame body s) := by
  rw [Eval.withFrame_eq]
  cases push : s.context.stack.push frame with
  | error e => exact .refl sound
  | ok pushed =>
    obtain rfl := FrameStack.push_eq push
    refine ensuring (ends (s.pushed (s.context.stack.add frame)) rfl nofun rfl) fun t later => ?_
    have stack := later.kept.popFrame
    exact ⟨later.sound, later.grows, ⟨stack ▸ FrameStack.withVisibility_self _, later.kept.scopes⟩⟩

theorem withScope {env : Env} {sizes : List Nat} {body : Eval α} (holds : Safe z env sizes body)
    (sound : Sound z s.shared) (frames : s.context.stack.frames ≠ [])
    (shapes : s.shared.memory.Shapes env sizes) :
    EndsSafely z s (Eval.withScope env body s) := by
  let inner : State := { s with context.scopes := env :: s.context.scopes }
  have ends := holds inner sound ⟨frames, rfl, shapes⟩
  refine ensuring ends fun t later => ?_
  exact ⟨later.sound, later.grows, ⟨later.kept.stack, congrArg List.tail later.kept.scopes⟩⟩

/-- A body in a frame and an environment of its own needs neither around it. -/
theorem bracket {frame : Frame} {env : Env} {sizes : List Nat} {body : Eval α}
    (holds : Safe z env sizes body) (sound : Sound z s.shared)
    (shapes : s.shared.memory.Shapes env sizes) :
    EndsSafely z s (Eval.withFrame frame (Eval.withScope env body) s) :=
  withFrame sound fun _ shared frames _ =>
    withScope holds (shared ▸ sound) frames (shared ▸ shapes)

/-- A new cell in front of an environment, and what follows in it. -/
theorem enterScope {scope : StaticId} {size : Nat} {parent : Env} {sizes : List Nat}
    {k : Env → Eval α} (sound : Sound z s.shared)
    (known : (sizing z).method scope = some size) (shapes : s.shared.memory.Shapes parent sizes)
    (ends : ∀ (t : State) env, Later z s t → t.context = s.context →
      t.shared.memory.Shapes env (size :: sizes) → EndsSafely z t (k env t)) :
    EndsSafely z s ((Eval.enterScope scope parent >>= k) s) := by
  have known : s.shared.memory.statics[scope]?.map StaticScope.size = some size :=
    sound.statics ▸ known
  have grows := s.shared.memory.grows_allocate scope parent
  have later : Later z s { s with shared.memory := (s.shared.memory.allocate scope parent).2 } :=
    ⟨sound.memory grows (sound.stored.allocate parent known) sound.statics, grows, .refl _⟩
  exact later.ends (ends _ _ later rfl (shapes.allocate known))

end EndsSafely

namespace Safe

variable {z : Array StaticScope} {env : Env} {sizes : List Nat}

theorem withFrame {α : Type} {frame : Frame} {body : Eval α} (holds : Safe z env sizes body) :
    Safe z env sizes (Eval.withFrame frame body) :=
  fun _ sound stands => .withFrame sound fun inner shared frames scopes =>
    holds inner (shared ▸ sound) ⟨frames, scopes ▸ stands.scopes, shared ▸ stands.shapes⟩

theorem withFrames {α : Type} {body : Eval α} (holds : Safe z env sizes body)
    (frames : List Frame) : Safe z env sizes (Eval.withFrames frames body) := by
  induction frames with
  | nil => exact holds
  | cons frame frames ih => exact ih.withFrame

theorem withNewScope {α : Type} {body : Eval α} {scope : StaticId} {size : Nat}
    (known : (sizing z).method scope = some size) (holds : ∀ env, Safe z env [size] body) :
    Safe z env sizes (Eval.withNewScope (some scope) body) := by
  intro s sound stands
  refine .enterScope sound known (.nil _) fun t own later same shapes => ?_
  exact .withScope (holds own) later.sound (same ▸ stands.frames) shapes

theorem traced {α : Type} {body : Eval α} (call : Invocation) (holds : Safe z env sizes body) :
    Safe z env sizes (Eval.traced call body) := by
  have fire (event : Event) : Safe z env sizes (modify (·.fire event)) :=
    update (fun _ sound _ => sound.of_eq rfl rfl rfl rfl rfl) (fun _ _ => .refl _)
      fun s => .refl s.context
  refine (read _).bind fun isActive => ?_
  split
  · refine (read _).bind fun event => (fire event).bind fun _ => fun s sound stands => ?_
    refine .ensuring (holds s sound stands) fun t later => ?_
    exact ⟨later.sound.of_eq rfl rfl rfl rfl rfl, later.grows, later.kept⟩
  · exact holds

theorem entering {α : Type} {body : Eval α} {config : CallConfig} {call : Invocation}
    (inside : Safe z env sizes (Eval.withNewScope (if config.pushesScope then call.scope else none)
      (Eval.traced call body))) : Safe z env sizes (Eval.entering config call body) := by
  unfold Eval.entering
  dsimp only
  split
  · exact (control.checkArity _ _).bind fun _ => inside.withFrames _
  · exact inside.withFrames _

theorem addMethod {method : Target → Method} (fits : ∀ t, (method t).Scoped z)
    (own : ∀ t, (method t).target = t) (plain : ∀ t, (method t).plain = method t) :
    Safe z env sizes (Eval.addMethod method) := by
  have isLocal := Local.addMethod (fun _ => method) (fun _ => own) (fun _ _ => rfl) fun _ => plain
  refine update (fun s sound _ => ⟨sound.statics, sound.stored, sound.closures, fun id => ?_,
    isLocal.faithful s sound.faithful⟩) (fun _ _ => .refl _) fun s => .refl s.context
  simp only [Shared.addMethod, Shared.freshTarget, Library.method_addMethod]
  split
  · exact fits _
  · exact sound.methods id

theorem defineMethod (name : String) {definition : Definition} (fits : definition.isScoped z) :
    Safe z env sizes (Eval.defineMethod name definition) :=
  control.defineMethod name fun _ _ => addMethod (fun _ => ⟨rfl, fits⟩) (fun _ => rfl) fun _ => rfl

theorem classBody (name : String) (superclass : Option String) (isModule : Bool) {scope : StaticId}
    {size : Nat} {body : Eval Value} (known : (sizing z).method scope = some size)
    (holds : ∀ env, Safe z env [size] body) :
    Safe z env sizes (Eval.classBody name superclass isModule scope body) := by
  refine (control.openClass name superclass isModule).bind fun id s sound stands => ?_
  exact .enterScope sound known (.nil _) fun t own later _ shapes =>
    .bracket (holds own) later.sound shapes

/-- A method runs as if it had only its tree. -/
theorem promoted {run : Method → Definition → Option Code → Eval Value}
    {other : Method → Eval Value} (id : MethodId) (name : String)
    (runs : ∀ m definition, m.body = .interpreted definition {} → m.Scoped z →
      Safe z env sizes (run m definition none))
    (others : ∀ m, (∀ definition promotion, m.body ≠ .interpreted definition promotion) →
      m.Scoped z → Safe z env sizes (other m))
    (same : ∀ m (definition : Definition) code, definition.body.lower = .ok code →
      run m definition (some code) = run m definition none) :
    Safe z env sizes (Eval.read (fun s => (s.shared.library.method id).plain) >>= fun m =>
      match m.body with
      | .interpreted definition _ => Eval.codeToRun id name >>= run m definition
      | _ => other m) := by
  intro s sound stands
  let next (m : Method) : Eval Value := match m.body with
    | .interpreted definition _ => Eval.codeToRun id name >>= run m definition
    | _ => other m
  have fits := Method.scoped_plain (Method.plain_plain _).symm (sound.methods id)
  change EndsSafely z s (next (s.shared.library.method id).plain s)
  generalize own : (s.shared.library.method id).plain = m at fits ⊢
  cases body : m.body with
  | interpreted definition promotion =>
    obtain rfl := Method.plain_interpreted (own ▸ body)
    have later := sound.promote id name
    simp only [next, body]
    rw [Eval.codeToRun_bind name sound.faithful (own ▸ body) (same m definition)]
    exact later.ends (runs m definition body fits _ later.sound (later.stands stands))
  | compiled | builtin =>
    simp only [next, body]
    exact others m (by simp [body]) fits s sound stands

theorem writeOption {slot : Option Nat} (value : Value)
    (has : ∀ own ∈ slot, hasVariable sizes own 0) :
    Safe z env sizes (Eval.writeOption env slot value) := by
  cases slot with
  | none => exact pure _
  | some own => exact writeVariable value (has own rfl)

theorem writeSlots (values : Array Value) (start : Nat)
    {slots : List Nat} (has : ∀ slot ∈ slots, hasVariable sizes slot 0) :
    Safe z env sizes (Eval.writeSlots env values start slots) := by
  induction slots generalizing start with
  | nil => exact pure _
  | cons slot slots ih =>
    exact (writeVariable _ (has slot (.head _))).bind fun _ =>
      ih _ fun other member => has other (.tail _ member)

theorem assign {size : Nat} {params : ClosureParams}
    (fits : params.fits size) (value : Value) (isPacked : Bool) :
    Safe z env (size :: sizes) (Eval.assign env params value isPacked) := by
  simp only [ClosureParams.fits, Bool.and_eq_true, List.all_eq_true] at fits
  obtain ⟨inSlots, inRest⟩ := fits
  unfold Eval.assign
  split
  · exact pure _
  · refine (writeSlots _ 0 inSlots).bind fun _ => ?_
    split
    · next slot rest => exact writeVariable _ (by rw [rest] at inRest; exact inRest)
    · exact pure _
  · exact writeOption _ fun slot first => inSlots slot (List.mem_of_head? first)
  · refine writeOption _ fun slot own => ?_
    rw [Option.mem_def.1 own] at inRest
    exact inRest

section asking

variable {ask : Responder} (asks : ∀ env sizes request, Safe z env sizes (ask request))
include asks

theorem performs {act : Act} (fits : act.IsAdmitted (·.isScoped (sizing z) sizes)) :
    Safe z env sizes (act.perform ask) := by
  have c : Control (Safe z env sizes) := control
  cases act with
  | call receiver name args block type =>
    exact c.callMethod (asks _ _) receiver name args block type
  | yield args => exact c.yieldArgs (asks _ _) args
  | superCall => exact c.superCall (asks _ _)
  | makeProc literal kind => exact c.map (makeLiteral kind fits) _
  | methodRef name => exact c.methodProc name
  | doReturn value => exact returnValue value
  | define name definition => exact defineMethod name fits

variable (bound : Nat)

/-- Wherever the environments have those sizes, whatever they are. -/
theorem congruence : Congruence (fun sizes _ x _ => ∀ env, Safe z env sizes x)
    (fun sizes node => node.isScoped (sizing z) sizes) bound (Act.perform ask)
    (Act.perform ask) where
  part := Tree.isScoped_of_part
  pure a _ := pure a
  bind first rest env := (first env).bind fun a => rest a env
  currentSelf _ := control.currentSelf
  localGet fits _ := currentEnv (readVariable fits)
  localSet value fits _ := currentEnv (writeVariable value fits)
  global name _ := control.global name
  setGlobal name value _ := control.setGlobal name value
  binary op left right _ := control.applyBinary op left right
  jump _ _ := signal _
  raised _ _ := control.raiseWith (fun s => by simp) fun _ => ⟨nofun, rfl⟩
  constant name _ := control.constantValue name
  blockGiven _ := control.blockGiven
  literal fits calls env :=
    control.callWithLiteral (makeLiteral .normal fits) fun id => calls id env
  passed value calls env := control.callWithPassed value fun block => calls block env
  looping tests runs env := control.looping (tests env) (runs env) bound bound fun _ => trivial
  rescuing runs handles env := control.rescuing (runs env) (handles env) bound fun _ => trivial
  classBody fits runs _ := by
    simp only [Tree.isScoped, Option.any_eq_true] at fits
    obtain ⟨size, known, inBody⟩ := fits
    exact classBody _ _ _ known (runs [size] inBody)
  act fits _ := performs asks fits

theorem eval {env : Env} {sizes : List Nat} (node : Node) (fits : node.isScoped (sizing z) sizes) :
    Safe z env sizes (node.eval bound ask) :=
  (congruence asks bound).eval node fits env

theorem bindOptional {env : Env} {size : Nat} {params : List (OptionalParam Node)}
    (fits : Tree.optionalScoped (sizing z) size params) (args : List Value) :
    Safe z env [size] (Eval.bindOptional (Tree.eval bound ask) env params args) := by
  induction params generalizing args with
  | nil => exact pure _
  | cons param params ih =>
    obtain ⟨slot, fallback⟩ := param
    simp only [Tree.optionalScoped, Bool.and_eq_true] at fits
    obtain ⟨⟨inSlot, inFallback⟩, inRest⟩ := fits
    have has : hasVariable [size] slot 0 := inSlot
    cases args with
    | nil =>
      exact (eval asks bound fallback inFallback).bind fun value =>
        (writeVariable value has).bind fun _ => ih inRest []
    | cons arg args => exact (writeVariable arg has).bind fun _ => ih inRest args

theorem bindArguments {env : Env} {size : Nat} {params : Params Node}
    (fits : Tree.paramsScoped (sizing z) size params) (args : List Value)
    (block : Option ClosureId) :
    Safe z env [size] (Eval.bindArguments (Tree.eval bound ask) params args block) := by
  obtain ⟨required, optional, rest, slot⟩ := params
  simp only [Tree.paramsScoped, Bool.and_eq_true, decide_eq_true_eq] at fits
  obtain ⟨⟨⟨inRequired, inOptional⟩, inRest⟩, inBlock⟩ := fits
  refine currentEnv ((writeOption _ fun own is => ?_).bind fun _ =>
    (writeArguments args fun positive => ?_).bind fun _ =>
      (bindOptional asks bound inOptional _).bind fun left => ?_)
  · have same : slot = some own := is
    rw [same] at inBlock
    exact inBlock
  · have positive : min required args.length ≠ 0 := positive
    exact decide_eq_true (by omega : 0 < size)
  · cases rest with
    | named own => exact writeVariable _ inRest
    | absent | anonymous => exact pure _

theorem runBody {env : Env} {sizes : List Nat} {m : Method} {definition : Definition}
    (config : m.config.pushesScope)
    (scope : ∀ call, (m.invocation call).scope = some definition.scope)
    (fits : definition.isScoped z) (call : Call) :
    Safe z env sizes (Eval.runBody bound ask m definition.params call
      (definition.body.eval bound ask)) := by
  simp only [Definition.isScoped, Option.any_eq_true, Bool.and_eq_true] at fits
  obtain ⟨size, known, inParams, inBody⟩ := fits
  refine entering ?_
  rw [if_pos config, scope call]
  refine withNewScope known fun own => traced _ ?_
  refine (observe ?_).bind fun outcome => (read _).bind ofOutcome
  exact (bindArguments asks bound inParams call.args call.block).bind fun _ =>
    eval asks bound definition.body inBody

theorem invoke {env : Env} {sizes : List Nat} (id : MethodId) (call : Call) :
    Safe z env sizes (Eval.invoke bound ask id call) := by
  rw [Eval.invoke_eq]
  refine promoted id call.name (fun m definition body fits => ?_) (fun m other fits => ?_)
    fun m definition code lowered => ?_
  · simp only [Method.Scoped, body] at fits
    exact runBody asks bound fits.1 (fun call => by simp only [Method.invocation, body]) fits.2 call
  · unfold Method.runOther
    split
    · next body => exact absurd body (other _ _)
    · next body => simp only [Method.Scoped, body] at fits
    · next builtin body =>
      have noScope : (m.invocation call).scope = none := by simp only [Method.invocation, body]
      refine entering ?_
      rw [noScope, ite_self]
      exact traced _ (control.builtin (asks env sizes) bound (fun _ => trivial) builtin call)
  · exact congrArg (Eval.runBody bound ask m definition.params call)
      (definition.body.exec_lower bound ask lowered)

/-- What a literal sees is what its closure remembers, not what is around the yield. -/
theorem yieldLiteral {s : State} {closure : Closure} {literal : Literal StaticId Node}
    (sound : Sound z s.shared) (fits : closure.Scoped s.shared.memory)
    (own : closure.body = .literal literal) (delivery : Delivery) :
    EndsSafely z s (Eval.yieldLiteral bound ask closure literal delivery s) := by
  obtain ⟨sizes, shapes, fits⟩ := fits literal own
  obtain ⟨scope, params, body⟩ := literal
  simp only [Tree.literalScoped, Option.any_eq_true, Bool.and_eq_true] at fits
  obtain ⟨size, known, inParams, inBody⟩ := fits
  rw [sound.statics] at known inBody
  refine .enterScope sound known shapes fun t env later _ shapes => .bracket ?_ later.sound shapes
  exact (assign inParams _ _).bind fun _ =>
    ((control.redoing (eval asks bound body inBody) bound).runs).bind fun _ => ofOutcome _

theorem yieldTo {env : Env} {sizes : List Nat} (id : ClosureId) (delivery : Delivery) :
    Safe z env sizes (Eval.yieldTo bound ask id delivery) := by
  intro s sound stands
  simp only [Eval.yieldTo, Eval.closure, Bind.bind, EStateM.bind, Eval.read]
  cases own : (s.shared.closure id).body with
  | literal literal => exact yieldLiteral asks bound sound (sound.closures id) own delivery
  | method => exact asks env sizes _ s sound stands

end asking

theorem answer (fuel : Nat) (env : Env) (sizes : List Nat) (request : Request) :
    Safe z env sizes (Eval.answer fuel request) := by
  -- The environment varies along with the fuel, as bodies ask from environments of their own.
  induction fuel generalizing env sizes request with
  | zero => exact exhausted
  | succ fuel ih =>
    cases request with
    | invoke id call => exact invoke ih fuel id call
    | yield id delivery => exact yieldTo ih fuel id delivery

end Safe

/-- A body that fits its scope runs in any context. -/
theorem EndsSafely.toplevel {z : Array StaticScope} {s : State} (sound : Sound z s.shared)
    (fuel : Nat) {scope : StaticId} {size : Nat} {body : Node}
    (known : (sizing z).method scope = some size)
    (fits : body.isScoped (sizing z) [size]) :
    EndsSafely z s (Engine.toplevel fuel scope body s) :=
  .enterScope sound known (.nil _) fun _ _ later _ shapes =>
    .bracket (Safe.eval (Safe.answer fuel) fuel body fits) later.sound shapes

end CallEngine
