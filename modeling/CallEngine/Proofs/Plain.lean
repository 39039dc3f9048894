import CallEngine.Engine
/-! States without what promotion leaves behind and without the bound on their frames, and the views
and updates that depend on neither. -/
namespace CallEngine

/-- The method as if it had never been called. -/
def Method.plain (m : Method) : Method := m.renewed m.target

namespace Method

@[simp] theorem plain_plain (m : Method) : m.plain.plain = m.plain := by
  obtain ⟨owner, visibility, config, target, body⟩ := m
  cases body <;> rfl

@[simp] theorem plain_arity (m : Method) : m.plain.arity = m.arity := by
  obtain ⟨owner, visibility, config, target, body⟩ := m
  cases body <;> rfl

@[simp] theorem plain_renewed (m : Method) (target : Target) :
    m.plain.renewed target = m.renewed target := by
  obtain ⟨owner, visibility, config, own, body⟩ := m
  cases body <;> rfl

@[simp] theorem plain_invocation (m : Method) (call : Call) :
    m.plain.invocation call = m.invocation call := by
  obtain ⟨owner, visibility, config, target, body⟩ := m
  cases body <;> rfl

end Method

theorem Method.plain_interpreted {m : Method} {definition : Definition} {promotion : Promotion}
    (body : m.plain.body = .interpreted definition promotion) : promotion = {} := by
  obtain ⟨owner, visibility, config, target, own⟩ := m
  cases own <;> cases body
  rfl

def Library.plain (library : Library) : Library :=
  { library with methods := library.methods.map Method.plain }

@[simp] theorem Library.method_plain (library : Library) (id : MethodId) :
    library.plain.method id = (library.method id).plain := by
  simp only [Library.method, Library.plain, Array.getD_eq_getD_getElem?, Array.getElem?_map]
  cases library.methods[id]? <;> rfl

/-- Without the settings that only decide what is compiled. -/
def Shared.plain (shared : Shared) : Shared :=
  { shared with
    config := { depthLimit := shared.config.depthLimit }
    backend := Backend.lowering
    library := shared.library.plain
    stats := {} }

def State.plain (s : State) : State := { s with shared := s.shared.plain }

@[simp] theorem Shared.arity_plain (shared : Shared) (closure : Closure) :
    shared.plain.arity closure = shared.arity closure := by
  unfold Shared.arity
  split
  · rfl
  · simp [Shared.plain]

@[simp] theorem State.directory_plain (s : State) : s.plain.directory = s.directory := by
  have views : s.plain.shared.closureView = s.shared.closureView := by
    funext id
    change (⟨_, s.shared.plain.arity _, _⟩ : ClosureView) = ⟨_, s.shared.arity _, _⟩
    rw [Shared.arity_plain]
    rfl
  simp only [State.directory, views]
  rfl

@[simp] theorem State.view_plain (s : State) (value : Value) :
    s.plain.view value = s.view value := by
  simp [State.view]

@[simp] theorem Library.plain_plain (library : Library) : library.plain.plain = library.plain := by
  simp [Library.plain, Function.comp_def]

@[simp] theorem State.plain_plain (s : State) : s.plain.plain = s.plain := by
  simp [State.plain, Shared.plain]

/-- The state under another bound on its frames. -/
def State.relimit (s : State) (limit : Option Nat) : State :=
  { s with context.stack.limit := limit, shared.config.depthLimit := limit }

/-- Without the bound on frames either. -/
def State.bare (s : State) : State := s.plain.relimit none

@[simp] theorem State.arity_bare (s : State) (closure : Closure) :
    s.bare.shared.arity closure = s.shared.arity closure :=
  s.shared.arity_plain closure

@[simp] theorem State.directory_bare (s : State) : s.bare.directory = s.directory :=
  s.directory_plain

@[simp] theorem State.view_bare (s : State) (value : Value) : s.bare.view value = s.view value :=
  s.view_plain value

theorem Library.plain_setMethod {library : Library} {id : MethodId} {m : Method}
    (same : m.plain = (library.method id).plain) :
    (library.setMethod id m).plain = library.plain := by
  have methods : (library.methods.setIfInBounds id m).map Method.plain =
      library.methods.map Method.plain := by
    apply Array.ext_getElem?
    intro other
    simp only [Array.getElem?_map, Array.getElem?_setIfInBounds]
    by_cases here : id = other
    · subst here
      rw [if_pos rfl]
      by_cases inside : id < library.methods.size
      · simp [inside, same, Library.method]
      · simp [inside]
    · rw [if_neg here]
  simp only [Library.plain, Library.setMethod, methods]

theorem State.promote_plain (s : State) (id : MethodId) (name : String) :
    (s.promote id name).2.plain = s.plain := by
  unfold promote
  dsimp only
  split
  · next definition promotion body =>
    have same (later : Promotion) : { s.shared.library.method id with
        body := .interpreted definition later }.plain = (s.shared.library.method id).plain := by
      simp only [Method.plain, Method.renewed, body]
    simp only [State.plain, Shared.plain, Library.plain_setMethod (same _)]
  · rfl

theorem State.promote_context (s : State) (id : MethodId) (name : String) :
    (s.promote id name).2.context = s.context :=
  (congrArg State.context (s.promote_plain id name) :)

theorem State.promote_monitor (s : State) (id : MethodId) (name : String) :
    (s.promote id name).2.shared.monitor = s.shared.monitor :=
  (congrArg (fun s : State => s.shared.monitor) (s.promote_plain id name) :)

/-- Views that neither promotion nor the bound on frames can change. -/
def Blind {α : Type} (view : State → α) : Prop := ∀ s, view s.bare = view s

namespace Blind

variable {α : Type} {view : State → α}

theorem plain (blind : Blind view) (s : State) : view s.plain = view s := by
  rw [← blind s.plain, ← blind s, State.bare, State.plain_plain, State.bare]

theorem relimit (blind : Blind view) (s : State) (limit : Option Nat) :
    view (s.relimit limit) = view s := by
  rw [← blind, ← blind s]
  rfl

theorem method (id : MethodId) : Blind fun s => (s.shared.library.method id).plain := by
  intro s
  simp [State.bare, State.relimit, State.plain, Shared.plain]

end Blind

/-- What brackets, monitoring and promotion work on. -/
structure Surroundings where
  stack : FrameStack
  scopes : List Env
  live : List Target
  id : ContextId
  monitor : Monitor
  config : Config
  backend : Backend
  stats : CompileStats

def State.surroundings (s : State) : Surroundings where
  stack := s.context.stack
  scopes := s.context.scopes
  live := s.context.liveLiterals
  id := s.context.id
  monitor := s.shared.monitor
  config := s.shared.config
  backend := s.shared.backend
  stats := s.shared.stats

/-- The closure that is made of a body and a place. -/
def Shared.made (shared : Shared) (body : ClosureBody) (binding : Binding) (kind : ClosureKind) :
    Closure :=
  let target : Target := ⟨shared.nextTarget⟩
  let frame :=
    if kind = .lambda then { binding.frame with jumpTarget := some target } else binding.frame
  { body, binding := { binding with frame }, target, kind }

theorem Shared.closure_added (shared : Shared) (body : ClosureBody) (binding : Binding)
    (kind : ClosureKind) (id : ClosureId) :
    (shared.addClosure body binding kind).2.closure id =
      if id = shared.closures.size then shared.made body binding kind else shared.closure id := by
  simp only [Shared.addClosure, Shared.freshTarget, Shared.closure, Array.getD_eq_getD_getElem?,
    Array.getElem?_push]
  split <;> rfl

/-- Methods other than the built-in ones. -/
def Method.HasBody (m : Method) : Prop := ∀ builtin, m.body ≠ .builtin builtin

/-- Identities have been given out before they are found anywhere, each of them once. -/
structure Shared.Orderly (shared : Shared) : Prop where
  closures : ∀ id, (shared.closure id).target.serial < shared.nextTarget
  methods : ∀ id, (shared.library.method id).HasBody →
    (shared.library.method id).target.serial < shared.nextTarget
  oneMethod : ∀ id other, (shared.library.method id).HasBody →
    (shared.library.method other).HasBody →
      (shared.library.method id).target = (shared.library.method other).target → id = other
  noLambda : ∀ id closure, (shared.library.method id).HasBody →
    (shared.closure closure).kind = .lambda →
      (shared.closure closure).target ≠ (shared.library.method id).target

/-- Old closures and methods keep their identities, and new ones have identities that were not used
before. -/
structure Shared.Extends (shared later : Shared) : Prop where
  nextTarget : shared.nextTarget ≤ later.nextTarget
  closures : ∀ id, later.closure id = shared.closure id ∨
    shared.nextTarget ≤ (later.closure id).target.serial ∧
      (later.closure id).target.serial < later.nextTarget
  lambdas : ∀ id, (shared.closure id).kind = .lambda → later.closure id = shared.closure id
  methods : ∀ id, (shared.library.method id).HasBody → (later.library.method id).HasBody ∧
    (later.library.method id).target = (shared.library.method id).target
  orderly : shared.Orderly → later.Orderly

namespace Shared.Extends

theorem of_same {shared later : Shared} (nextTarget : later.nextTarget = shared.nextTarget)
    (closures : later.closures = shared.closures)
    (methods : ∀ id, ((later.library.method id).HasBody ↔ (shared.library.method id).HasBody) ∧
      (later.library.method id).target = (shared.library.method id).target) :
    shared.Extends later := by
  have same (id : ClosureId) : later.closure id = shared.closure id := by
    simp only [Shared.closure, closures]
  refine ⟨Nat.le_of_eq nextTarget.symm, fun id => .inl (same id), fun id _ => same id,
    fun id hasBody => ⟨(methods id).1.2 hasBody, (methods id).2⟩, fun orderly => ?_⟩
  constructor
  · intro id
    rw [same, nextTarget]
    exact orderly.closures id
  · intro id
    rw [(methods id).1, (methods id).2, nextTarget]
    exact orderly.methods id
  · intro id other
    rw [(methods id).1, (methods id).2, (methods other).1, (methods other).2]
    exact orderly.oneMethod id other
  · intro id closure
    rw [(methods id).1, (methods id).2, same]
    exact orderly.noLambda id closure

theorem of_eq {shared later : Shared} (nextTarget : later.nextTarget = shared.nextTarget)
    (closures : later.closures = shared.closures)
    (methods : later.library.methods = shared.library.methods) : shared.Extends later :=
  of_same nextTarget closures fun id => by simp only [Library.method, methods, and_self]

theorem refl (shared : Shared) : shared.Extends shared := of_eq rfl rfl rfl

theorem trans {a b c : Shared} (first : a.Extends b) (second : b.Extends c) : a.Extends c where
  nextTarget := Nat.le_trans first.nextTarget second.nextTarget
  closures id := by
    have later := second.nextTarget
    have earlier := first.nextTarget
    rcases second.closures id with same | new
    · rcases first.closures id with old | new
      · exact .inl (same.trans old)
      · rw [same]
        exact .inr ⟨new.1, Nat.lt_of_lt_of_le new.2 later⟩
    · exact .inr ⟨Nat.le_trans earlier new.1, new.2⟩
  lambdas id lambda := by
    have same := first.lambdas id lambda
    exact (second.lambdas id (same ▸ lambda)).trans same
  methods id hasBody := by
    obtain ⟨hasBody', same⟩ := first.methods id hasBody
    obtain ⟨hasBody'', same'⟩ := second.methods id hasBody'
    exact ⟨hasBody'', same'.trans same⟩
  orderly before := second.orderly (first.orderly before)

theorem addClosure (shared : Shared) (body : ClosureBody) (binding : Binding) (kind : ClosureKind) :
    shared.Extends (shared.addClosure body binding kind).2 where
  nextTarget := Nat.le_succ shared.nextTarget
  closures id := by
    rw [shared.closure_added body binding kind id]
    split
    · exact .inr ⟨Nat.le_refl _, Nat.lt_succ_self _⟩
    · exact .inl rfl
  lambdas id lambda := by
    rw [shared.closure_added body binding kind id, if_neg]
    rintro rfl
    simp only [Shared.closure, Array.getD_eq_getD_getElem?, Array.getElem?_size] at lambda
    cases lambda
  methods id hasBody := ⟨hasBody, rfl⟩
  orderly before := by
    refine ⟨fun id => ?_, fun id hasBody => Nat.lt_succ_of_lt (before.methods id hasBody),
      before.oneMethod, fun id closure hasBody => ?_⟩
    · rw [shared.closure_added body binding kind id]
      split
      · exact Nat.lt_succ_self _
      · exact Nat.lt_succ_of_lt (before.closures id)
    · rw [shared.closure_added body binding kind closure]
      split
      · intro _ same
        have given := before.methods id hasBody
        have fresh := congrArg Target.serial same
        exact absurd given (Nat.not_lt.2 (Nat.le_of_eq fresh))
      · exact before.noLambda id closure hasBody

theorem freshTarget (shared : Shared) : shared.Extends shared.freshTarget.2 where
  nextTarget := Nat.le_succ shared.nextTarget
  closures _ := .inl rfl
  lambdas _ _ := rfl
  methods _ hasBody := ⟨hasBody, rfl⟩
  orderly before := ⟨fun id => Nat.lt_succ_of_lt (before.closures id),
    fun id hasBody => Nat.lt_succ_of_lt (before.methods id hasBody), before.oneMethod,
    before.noLambda⟩

end Shared.Extends

/-- Methods stay as they are, and those that are made have not been called. -/
def Library.Gains (library later : Library) : Prop := ∃ made : Array Method,
  later.methods = library.methods ++ made ∧ ∀ m ∈ made, m.plain = m

namespace Library.Gains

variable {a b c : Library}

theorem of_eq (methods : b.methods = a.methods) : a.Gains b :=
  ⟨#[], by simp [methods], nofun⟩

theorem trans (first : a.Gains b) (second : b.Gains c) : a.Gains c := by
  obtain ⟨made, methods, plain⟩ := first
  obtain ⟨later, methods', plain'⟩ := second
  refine ⟨made ++ later, by rw [methods', methods, Array.append_assoc], fun m member => ?_⟩
  exact (Array.mem_append.1 member).elim (plain m) (plain' m)

theorem old (gains : a.Gains b) {id : MethodId} (inside : id < a.methods.size) :
    b.method id = a.method id := by
  obtain ⟨made, methods, -⟩ := gains
  simp only [method, methods, Array.getD_eq_getD_getElem?, Array.getElem?_append_left inside]

theorem new (gains : a.Gains b) {id : MethodId} (missing : a.methods.size ≤ id) :
    (b.method id).plain = b.method id := by
  obtain ⟨made, methods, plain⟩ := gains
  simp only [method, methods, Array.getD_eq_getD_getElem?, Array.getElem?_append_right missing]
  cases found : made[id - a.methods.size]? with
  | none => rfl
  | some m => exact plain m (Array.mem_of_getElem? found)

end Library.Gains

/-- Updates that have nothing to do with brackets, monitoring or promotion. -/
structure Local {α : Type} (f : State → α × State) : Prop where
  plain : ∀ s, f s.plain = ((f s).1, (f s).2.plain)
  surroundings : ∀ s, (f s).2.surroundings = s.surroundings
  identities : ∀ s : State, s.shared.Extends (f s).2.shared
  methods : ∀ s : State, s.shared.library.Gains (f s).2.shared.library

/-- A method that runs the same body, under the same configuration or that of modules. -/
structure Method.Copies (copy m : Method) : Prop where
  body : copy.body = m.plain.body
  config : copy.config = m.config ∨ copy.config = .moduleFunction

theorem Method.plain_of_body {copy m : Method} (same : copy.body = m.plain.body) :
    copy.plain = copy := by
  obtain ⟨owner, visibility, config, target, body⟩ := m
  obtain ⟨owner', visibility', config', target', body'⟩ := copy
  cases body <;> cases same <;> rfl

/-- Local updates that do not depend on the bound on frames either. -/
structure Boundless {α : Type} (f : State → α × State) : Prop extends Local f where
  relimit : ∀ s limit, f (s.relimit limit) = ((f s).1, (f s).2.relimit limit)

/-- Those that make no closure and no method with a body of its own, and leave variables alone. -/
structure Quiet {α : Type} (f : State → α × State) : Prop extends Boundless f where
  memory : ∀ s, (f s).2.shared.memory = s.shared.memory
  closures : ∀ s, (f s).2.shared.closures = s.shared.closures
  copies : ∀ s id, (f s).2.shared.library.method id = s.shared.library.method id ∨
    ∃ other, ((f s).2.shared.library.method id).Copies (s.shared.library.method other)

theorem Library.method_addMethod (library : Library) (m : Method) (id : MethodId) :
    (library.addMethod m).2.method id =
      if id = library.methods.size then m else library.method id := by
  simp only [Library.method, Library.addMethod, Array.getD_eq_getD_getElem?, Array.getElem?_push]
  split <;> rfl

theorem Library.Gains.addMethod {library : Library} {m : Method} (plain : m.plain = m) :
    library.Gains (library.addMethod m).2 := by
  refine ⟨#[m], rfl, fun made member => ?_⟩
  rw [Array.mem_singleton.1 member, plain]

theorem Library.method_setMethod (library : Library) (id other : MethodId) (m : Method) :
    (library.setMethod id m).method other = library.method other ∨
      other = id ∧ (library.setMethod id m).method other = m := by
  simp only [Library.method, Library.setMethod, Array.getD_eq_getD_getElem?,
    Array.getElem?_setIfInBounds]
  by_cases same : id = other
  · subst same
    by_cases inside : id < library.methods.size
    · exact .inr ⟨rfl, by simp [inside]⟩
    · exact .inl (by simp [inside])
  · exact .inl (by simp [same])

/-- A method that does not exist has no body. -/
theorem Library.ne_of_hasBody {library : Library} {id : MethodId}
    (hasBody : (library.method id).HasBody) : id ≠ library.methods.size := by
  rintro rfl
  refine hasBody default ?_
  simp only [Library.method, Array.getD_eq_getD_getElem?, Array.getElem?_size]
  rfl

theorem Shared.Extends.addMethod (shared : Shared) {method : Target → Method}
    (own : ∀ t, (method t).target = t) : shared.Extends (shared.addMethod method).2 := by
  let made := method ⟨shared.nextTarget⟩
  have added (id : MethodId) : (shared.addMethod method).2.library.method id =
      if id = shared.library.methods.size then made else shared.library.method id :=
    shared.library.method_addMethod made id
  have fresh : made.target.serial = shared.nextTarget := congrArg Target.serial (own _)
  refine ⟨Nat.le_succ _, fun _ => .inl rfl, fun _ _ => rfl, fun id hasBody => ?_,
    fun before => ?_⟩
  · rw [added, if_neg (Library.ne_of_hasBody hasBody)]
    exact ⟨hasBody, rfl⟩
  · have older (id : MethodId) (hasBody : (shared.library.method id).HasBody) :
        made.target ≠ (shared.library.method id).target := by
      intro same
      have given := before.methods id hasBody
      rw [← same, fresh] at given
      exact Nat.lt_irrefl _ given
    refine ⟨fun id => Nat.lt_succ_of_lt (before.closures id), fun id => ?_, fun id other => ?_,
      fun id closure => ?_⟩
    · rw [added]
      split
      · intro _
        rw [fresh]
        exact Nat.lt_succ_self _
      · exact fun hasBody => Nat.lt_succ_of_lt (before.methods id hasBody)
    · rw [added, added]
      split <;> split
      · next new new' => exact fun _ _ _ => new.trans new'.symm
      · exact fun _ hasBody same => absurd same (older other hasBody)
      · exact fun hasBody _ same => absurd same.symm (older id hasBody)
      · exact before.oneMethod id other
    · rw [added]
      split
      · intro _ _ same
        have given := before.closures closure
        change (shared.closure closure).target = made.target at same
        rw [same, fresh] at given
        exact Nat.lt_irrefl _ given
      · exact before.noLambda id closure

theorem Library.plain_addMethod (library : Library) (m : Method) :
    library.plain.addMethod m.plain =
      ((library.addMethod m).1, (library.addMethod m).2.plain) := by
  simp [Library.addMethod, Library.plain]

namespace Local

variable {α : Type}

theorem memory (g : Memory → α × Memory) :
    Local fun s : State =>
      ((g s.shared.memory).1, { s with shared.memory := (g s.shared.memory).2 }) :=
  ⟨fun _ => rfl, fun _ => rfl, fun _ => .of_eq rfl rfl rfl, fun _ => .of_eq rfl⟩

theorem addClosure (body : ClosureBody) (binding : Binding) (kind : ClosureKind) :
    Local fun s : State =>
      let (id, shared) := s.shared.addClosure body binding kind
      (id, { s with shared }) :=
  ⟨fun _ => rfl, fun _ => rfl, fun s => .addClosure s.shared body binding kind,
    fun _ => .of_eq rfl⟩

theorem addMethod (method : Shared → Target → Method)
    (own : ∀ shared t, (method shared t).target = t)
    (blind : ∀ shared t, method shared.plain t = method shared t)
    (plain : ∀ shared t, (method shared t).plain = method shared t) :
    Local fun s : State =>
      let (id, shared) := s.shared.addMethod (method s.shared)
      (id, { s with shared }) where
  plain s := by
    have step := s.shared.library.plain_addMethod (method s.shared ⟨s.shared.nextTarget⟩)
    rw [plain] at step
    simp only [State.plain, Shared.addMethod, Shared.freshTarget, blind]
    simp only [Shared.plain, step]
  surroundings _ := rfl
  identities s := .addMethod s.shared (own s.shared)
  methods s := .addMethod (plain _ _)

theorem newMethod (owner : ClassId) (visibility : Visibility) (definition : Definition) :
    Local fun s : State =>
      let (id, shared) := s.shared.addMethod fun target =>
        ⟨owner, visibility, .frameAndScope, target, .interpreted definition {}⟩
      (id, { s with shared }) :=
  addMethod (fun _ target => ⟨owner, visibility, .frameAndScope, target, .interpreted definition {}⟩)
    (fun _ _ => rfl) (fun _ _ => rfl) fun _ _ => rfl

theorem copyMethod (source : MethodId) (change : Method → Method)
    (body : ∀ m, (change m).body = m.body) (target : ∀ m, (change m).target = m.target) :
    Local fun s : State =>
      let (id, shared) := s.shared.copyMethod source change
      (id, { s with shared }) := by
  refine addMethod (fun shared t => change ((shared.library.method source).renewed t))
    (fun shared t => target _) ?_ ?_
  · intro shared t
    simp [Shared.plain]
  · intro shared t
    refine Method.plain_of_body (m := shared.library.method source) ?_
    rw [body]
    rfl

end Local

theorem Local.monitor {α : Type} {f : State → α × State} (isLocal : Local f) (s : State) :
    (f s).2.shared.monitor = s.shared.monitor :=
  congrArg Surroundings.monitor (isLocal.surroundings s)

namespace Quiet

variable {α : Type} {f : State → α × State}

theorem of_methods (plain : ∀ s, f s.plain = ((f s).1, (f s).2.plain))
    (relimit : ∀ s limit, f (s.relimit limit) = ((f s).1, (f s).2.relimit limit))
    (surroundings : ∀ s, (f s).2.surroundings = s.surroundings)
    (memory : ∀ s, (f s).2.shared.memory = s.shared.memory)
    (nextTarget : ∀ s, (f s).2.shared.nextTarget = s.shared.nextTarget)
    (closures : ∀ s, (f s).2.shared.closures = s.shared.closures)
    (methods : ∀ s, (f s).2.shared.library.methods = s.shared.library.methods) : Quiet f := by
  have same (s : State) (id : MethodId) :
      (f s).2.shared.library.method id = s.shared.library.method id := by
    simp only [Library.method, methods]
  have isLocal : Local f := ⟨plain, surroundings,
    fun s => .of_eq (nextTarget s) (closures s) (methods s), fun s => .of_eq (methods s)⟩
  exact ⟨⟨isLocal, relimit⟩, memory, closures, fun s id => .inl (same s id)⟩

theorem setLastCall (type : CallType) :
    Quiet fun s : State => ((), { s with context.lastCall := type }) :=
  of_methods (fun _ => rfl) (fun _ _ => rfl) (fun _ => rfl) (fun _ => rfl) (fun _ => rfl)
    (fun _ => rfl) fun _ => rfl

theorem setGlobal (name : String) (value : Value) :
    Quiet fun s : State =>
      ((), { s with context.globals := s.context.globals.insert name value }) :=
  of_methods (fun _ => rfl) (fun _ _ => rfl) (fun _ => rfl) (fun _ => rfl) (fun _ => rfl)
    (fun _ => rfl) fun _ => rfl

theorem newObject (cls : ClassId) :
    Quiet fun s : State =>
      let (object, shared) := s.shared.newObject cls
      (Value.object object, { s with shared }) :=
  of_methods (fun _ => rfl) (fun _ _ => rfl) (fun _ => rfl) (fun _ => rfl) (fun _ => rfl)
    (fun _ => rfl) fun _ => rfl

theorem library (g : Library → α × Library)
    (plain : ∀ l, g l.plain = ((g l).1, (g l).2.plain))
    (methods : ∀ l, (g l).2.methods = l.methods) :
    Quiet fun s : State =>
      ((g s.shared.library).1, { s with shared.library := (g s.shared.library).2 }) := by
  refine of_methods (fun s => ?_) (fun _ _ => rfl) (fun _ => rfl) (fun _ => rfl) (fun _ => rfl)
    (fun _ => rfl) fun s => methods _
  have step := plain s.shared.library
  simp only [State.plain, Shared.plain, step]

theorem copyMethod (source : MethodId) (change : Method → Method)
    (body : ∀ m, (change m).body = m.body) (target : ∀ m, (change m).target = m.target)
    (config : ∀ m, (change m).config = m.config ∨ (change m).config = .moduleFunction) :
    Quiet fun s : State =>
      let (id, shared) := s.shared.copyMethod source change
      (id, { s with shared }) where
  toBoundless := ⟨.copyMethod source change body target, fun _ _ => rfl⟩
  memory _ := rfl
  closures _ := rfl
  copies s id := by
    simp only [Shared.copyMethod, Shared.addMethod, Shared.freshTarget, Library.method_addMethod]
    split
    · exact .inr ⟨source, body _, config _⟩
    · exact .inl rfl

end Quiet

end CallEngine
