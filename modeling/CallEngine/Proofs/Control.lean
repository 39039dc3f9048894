import CallEngine.Proofs.Plain
/-! Properties of evaluations that sequencing and handlers keep, and what then has them: loops,
rescue clauses, calls and built-in methods. -/
namespace CallEngine
open Eval

/-- A property of evaluations, whatever they give. -/
abbrev EvalProperty := ∀ ⦃α : Type⦄, Eval α → Prop

theorem EvalProperty.ext {P Q : EvalProperty} (same : ∀ {α : Type} (x : Eval α), P x ↔ Q x) :
    @P = @Q := by
  funext α x
  exact propext (same x)

/-- An error as it is raised: not by a request to stop, and no method boundary has seen it. -/
structure EvalError.IsFresh (e : EvalError) : Prop where
  kind : e.kind ≠ .interrupted
  backtrace : e.backtrace = []

/-- Neither an error nor a return, nor a break that a closure has claimed. -/
def Signal.IsJump : Signal → Prop
  | .error _ | .leave .. | .stop (some _) _ => False
  | _ => True

/-- Outcomes that a handler may replace. Errors that cannot be rescued pass through all handlers. -/
def Outcome.IsOpen : Outcome → Prop
  | .error (.error e) => e.kind.isRescuable
  | _ => True

/-- What a handler makes of an outcome: the outcome itself, or an evaluation with the property. -/
def Handled (P : EvalProperty) (outcome : Outcome) (x : Eval Value) : Prop :=
  x = ofOutcome outcome ∨ outcome.IsOpen ∧ P x

theorem Handled.atLiteral {P : EvalProperty} (pure : ∀ value : Value, P (Pure.pure value))
    (target : Target) (outcome : Outcome) :
    Handled P outcome (ofOutcome (outcome.atLiteral target)) := by
  unfold Outcome.atLiteral
  split
  · split
    · exact .inr ⟨trivial, pure _⟩
    · exact .inl rfl
  · exact .inl rfl

theorem Handled.holds {P : EvalProperty} {outcome : Outcome} {x : Eval Value}
    (handled : Handled P outcome x) (passes : P (ofOutcome outcome)) : P x := by
  rcases handled with same | ⟨-, holds⟩
  · exact same ▸ passes
  · exact holds

/-- The property of what gives an outcome, also when the outcome is passed on. -/
structure Observed (P : EvalProperty) (x : Eval Outcome) : Prop where
  runs : P x
  passes : P (x >>= ofOutcome)

theorem observe_ofOutcome (body : Eval Value) : observe body >>= ofOutcome = body := by
  funext s
  simp only [bind, EStateM.bind, observe]
  cases body s with
  | ok value s => rfl
  | error halt s => cases halt <;> rfl

/-- What sequencing, polls and handlers keep. An evaluation can run out of its bound only where it
resumes after a poll. -/
structure Handling (P : EvalProperty) (resumes : Prop) : Prop where
  pure {α : Type} (a : α) : P (Pure.pure a)
  bind {α β : Type} {x : Eval α} {f : α → Eval β} : P x → (∀ a, P (f a)) → P (x >>= f)
  read {α : Type} {view : State → α} : Blind view → P (Eval.read view)
  raise {α : Type} {e : EvalError} : e.IsFresh → P (Eval.raise e : Eval α)
  visibility (visibility : Visibility) : P (Eval.setVisibility visibility)
  /-- Only closures that were made are live, and their breaks end where they cease to be. -/
  live {id : ClosureId} {body : Eval Value} : P body →
    P (Eval.closure id >>= fun made => whileLive made.target body >>= fun outcome =>
      ofOutcome (outcome.atLiteral made.target))
  spent {α : Type} : resumes → P (throw .exhausted : Eval α)
  polled {α : Type} {rest : Eval α} : (resumes → P rest) → P (Eval.poll >>= fun _ => rest)
  /-- The handler may look at the state before it decides. -/
  attend {γ : Type} {body : Eval Value} {view : State → γ} {k : Outcome → γ → Eval Value} :
    P body → Blind view → (∀ outcome c, Handled P outcome (k outcome c)) →
      P (Eval.observe body >>= fun outcome => Eval.read view >>= k outcome)

/-- What also holds of an evaluation whose outcome is observed and then dropped. -/
structure Sequential (P : EvalProperty) : Prop extends Handling P True where
  exhausted {α : Type} : P (throw .exhausted : Eval α)
  poll : P Eval.poll
  observe {body : Eval Value} : P body → P (Eval.observe body)
  handle {γ : Type} {x : Eval Outcome} {view : State → γ} {k : Outcome → γ → Eval Value} :
    Observed P x → Blind view → (∀ outcome c, Handled P outcome (k outcome c)) →
      P (x >>= fun outcome => Eval.read view >>= k outcome)
  spent _ := exhausted
  polled rest := bind poll fun _ => rest trivial
  attend {_ body _ _} holds :=
    handle ⟨observe holds, (observe_ofOutcome body).symm ▸ holds⟩

/-- Also what looks at the innermost frame and environment, quiet updates, and closures over
methods that exist. -/
structure Steering (P : EvalProperty) (resumes : Prop) : Prop extends Handling P resumes where
  frame : P currentFrame
  env : P currentEnv
  quiet {α : Type} {f : State → α × State} : Quiet f → P (modifyGet f)
  methodClosure (id : MethodId) (name : String) : P (makeClosure (.method id name) .lambda)

structure Control (P : EvalProperty) : Prop extends Sequential P, Steering P True

theorem Library.constant_fresh {library : Library} {name : String} {e : EvalError}
    (failed : library.constant name = .error e) : e.IsFresh := by
  unfold Library.constant at failed
  split at failed <;> cases failed
  exact ⟨nofun, rfl⟩

namespace Library

variable (library : Library) (name : String) (superclass : Option String) (isModule : Bool)

theorem openClass_plain :
    library.plain.openClass name superclass isModule =
      (library.openClass name superclass isModule).map fun made => (made.1, made.2.plain) := by
  unfold openClass
  rw [show library.plain.constants = library.constants from rfl]
  cases library.constants.get? name with
  | some id =>
    dsimp only
    rw [show library.plain.cls id = library.cls id from rfl]
    split <;> rfl
  | none =>
    dsimp only
    split
    · rfl
    · cases superclass with
      | none => rfl
      | some parent =>
        dsimp only
        rw [show library.plain.constant parent = library.constant parent from rfl]
        cases library.constant parent <;> rfl

/-- A class is found, or made, or there is an error. -/
theorem openClass_cases : (∃ id, library.openClass name superclass isModule = .ok (id, library)) ∨
    (∃ cls, library.openClass name superclass isModule = .ok (library.register cls)) ∨
    ∃ e, e.IsFresh ∧ library.openClass name superclass isModule = .error e := by
  unfold openClass
  cases library.constants.get? name with
  | some id =>
    dsimp only
    split
    · exact .inl ⟨id, rfl⟩
    · refine .inr (.inr ⟨_, ?_, rfl⟩)
      exact ⟨nofun, rfl⟩
  | none =>
    dsimp only
    split
    · exact .inr (.inl ⟨_, rfl⟩)
    · cases superclass with
      | none => exact .inr (.inl ⟨_, rfl⟩)
      | some parent =>
        dsimp only
        cases found : library.constant parent with
        | ok id => exact .inr (.inl ⟨_, rfl⟩)
        | error e => exact .inr (.inr ⟨e, constant_fresh found, rfl⟩)

/-- The library once the class is open. -/
def opened (library : Library) (name : String) (superclass : Option String) (isModule : Bool) :
    Library :=
  match library.openClass name superclass isModule with
  | .ok made => made.2
  | .error _ => library

theorem opened_plain (library : Library) (name : String) (superclass : Option String)
    (isModule : Bool) : library.plain.opened name superclass isModule =
      (library.opened name superclass isModule).plain := by
  unfold opened
  rw [openClass_plain]
  cases library.openClass name superclass isModule <;> rfl

theorem opened_methods (library : Library) (name : String) (superclass : Option String)
    (isModule : Bool) : (library.opened name superclass isModule).methods = library.methods := by
  unfold opened
  obtain ⟨id, result⟩ | ⟨cls, result⟩ | ⟨e, -, result⟩ :=
    library.openClass_cases name superclass isModule
  · rw [result]
  · rw [result]
    rfl
  · rw [result]

end Library

theorem Eval.openClass_eq (name : String) (superclass : Option String) (isModule : Bool) :
    Eval.openClass name superclass isModule = (do
      let id ← Eval.orRaise (← Eval.read fun s =>
        (s.shared.library.openClass name superclass isModule).map Prod.fst)
      modifyGet fun s => ((), { s with
        shared.library := s.shared.library.opened name superclass isModule })
      return id) := by
  funext s
  simp only [Eval.openClass, Bind.bind, EStateM.bind, Eval.read]
  cases result : s.shared.library.openClass name superclass isModule with
  | error e => rfl
  | ok made =>
    have opened : s.shared.library.opened name superclass isModule = made.2 := by
      simp only [Library.opened, result]
    change EStateM.Result.ok made.1 { s with shared.library := made.2 } = _
    rw [← opened]
    rfl

/-- Of a method that is looked up, only what promotion leaves alone is used. -/
theorem Eval.method_eq {β : Type} {k k' : Method → Eval β} (id : MethodId)
    (same : ∀ m, k m = k' m.plain) :
    Eval.method id >>= k = Eval.read (fun s => (s.shared.library.method id).plain) >>= k' :=
  funext fun s => congrFun (same (s.shared.library.method id)) s

namespace Handling

variable {P : EvalProperty} {resumes : Prop} (h : Handling P resumes)
include h

theorem map {α β : Type} {x : Eval α} (holds : P x) (f : α → β) : P (do return f (← x)) :=
  h.bind holds fun _ => h.pure _

theorem functorMap {α β : Type} {x : Eval α} (holds : P x) (f : α → β) : P (f <$> x) := by
  rw [map_eq_pure_bind]
  exact h.map holds f

/-- What is true of a view in every state is known of the value that is read. -/
theorem readFact {α β : Type} {view : State → α} {k : α → Eval β} (Q : α → Prop)
    (blind : Blind view) (fact : ∀ s, Q (view s)) (holds : ∀ a, Q a → P (k a)) :
    P (Eval.read view >>= k) := by
  have same : Eval.read view >>= k =
      Eval.read (fun s => (⟨view s, fact s⟩ : { a // Q a })) >>= fun a => k a.1 := rfl
  rw [same]
  exact h.bind (h.read fun s => Subtype.ext (blind s)) fun a => holds a.1 a.2

theorem raiseWith {α : Type} {error : State → EvalError} (blind : Blind error)
    (fresh : ∀ s, (error s).IsFresh) : P (Eval.raiseWith error : Eval α) :=
  h.readFact EvalError.IsFresh blind fresh fun _ => h.raise

theorem orRaise {α : Type} {result : Except EvalError α}
    (fresh : ∀ e, result = .error e → e.IsFresh) : P (Eval.orRaise result) := by
  cases result with
  | ok a => exact h.pure a
  | error e => exact h.raise (fresh e rfl)

theorem checkArity (arity : Arity) (count : Nat) :
    P (Eval.orRaise ((arity.check count).mapError EvalError.arityMismatch)) := by
  refine h.orRaise fun e refused => ?_
  cases result : arity.check count with
  | ok _ =>
    rw [result] at refused
    cases refused
  | error error =>
    rw [result] at refused
    cases refused
    exact ⟨nofun, rfl⟩

/-- A handler that does not look at the state. -/
theorem handleBody {body : Eval Value} {k : Outcome → Eval Value} (holds : P body)
    (handled : ∀ outcome, Handled P outcome (k outcome)) : P (Eval.observe body >>= k) :=
  have blind : Blind fun _ => () := fun _ => rfl
  h.attend (k := fun outcome _ => k outcome) holds blind fun outcome _ => handled outcome

theorem redone {body : Eval Value} {k : Outcome → Eval Value} (holds : P body) (bound : Nat)
    (enough : bound = 0 → resumes) (handled : ∀ outcome, Handled P outcome (k outcome)) :
    P (Eval.redoing body bound >>= k) := by
  induction bound with
  | zero => exact h.spent (enough rfl)
  | succ bound ih =>
    rw [Eval.redoing, bind_assoc]
    refine h.handleBody holds fun outcome => ?_
    by_cases again : outcome = .error .redo
    · subst again
      refine .inr ⟨trivial, ?_⟩
      change P ((Eval.poll >>= fun _ => Eval.redoing body bound) >>= k)
      rw [bind_assoc]
      exact h.polled fun resumes => ih fun _ => resumes
    · have passes := handled outcome
      rcases outcome with g | value
      · cases g with
        | redo => exact absurd rfl again
        | _ => exact passes
      · exact passes

theorem looping {test body : Eval Value} (tests : P test) (runs : P body) (bound iterations : Nat)
    (enough : iterations = 0 → resumes) : P (Eval.looping test body bound iterations) := by
  induction iterations with
  | zero => exact h.spent (enough rfl)
  | succ iterations ih =>
    rw [Eval.looping]
    refine h.polled fun resumes => h.bind tests fun value => ?_
    split
    · refine h.redone runs bound (fun _ => resumes) fun outcome => ?_
      have again := ih fun _ => resumes
      rcases outcome with g | value
      · cases g with
        | next value => exact .inr ⟨trivial, again⟩
        | stop target value =>
          cases target with
          | none => exact .inr ⟨trivial, h.pure value⟩
          | some target => exact .inl rfl
        | _ => exact .inl rfl
      · exact .inr ⟨trivial, again⟩
    · exact h.pure _

theorem orphaned (target : Target) (outcome : Outcome) :
    Handled P outcome (ofOutcome (outcome.orphaned target)) := by
  unfold Outcome.orphaned
  split
  · split
    · exact .inr ⟨trivial, h.raise ⟨nofun, rfl⟩⟩
    · exact .inl rfl
  · exact .inl rfl

theorem surfaced {body : Eval Value} (holds : P body) : P (Engine.surfaced body) := by
  refine h.handleBody holds fun outcome => ?_
  rcases outcome with g | value
  · cases g with
    | error e => exact .inl rfl
    | _ => exact .inr ⟨trivial, h.raise ⟨nofun, rfl⟩⟩
  · exact .inl rfl

end Handling

namespace Sequential

variable {P : EvalProperty} (h : Sequential P)
include h

theorem redoing {body : Eval Value} (holds : P body) (bound : Nat) :
    Observed P (Eval.redoing body bound) := by
  induction bound with
  | zero => exact ⟨h.exhausted, h.exhausted⟩
  | succ bound ih =>
    refine ⟨h.bind (h.observe holds) fun outcome => ?_, ?_⟩
    · split
      · exact h.bind h.poll fun _ => ih.runs
      · exact h.pure _
    rw [Eval.redoing, bind_assoc]
    refine h.handleBody holds fun outcome => ?_
    by_cases again : outcome = .error .redo
    · subst again
      refine .inr ⟨trivial, ?_⟩
      change P ((Eval.poll >>= fun _ => Eval.redoing body bound) >>= ofOutcome)
      rw [bind_assoc]
      exact h.bind h.poll fun _ => ih.passes
    · left
      rcases outcome with g | value
      · cases g with
        | redo => exact absurd rfl again
        | _ => rfl
      · rfl

end Sequential

namespace Steering

variable {P : EvalProperty} {resumes : Prop} (h : Steering P resumes)
include h

theorem rescuing {body handler : Eval Value} (runs : P body) (handles : P handler) (bound : Nat)
    (enough : bound = 0 → resumes) : P (Eval.rescuing body handler bound) := by
  induction bound with
  | zero => exact h.spent (enough rfl)
  | succ bound ih =>
    rw [Eval.rescuing]
    refine h.handleBody runs fun outcome => ?_
    rcases outcome with g | value
    · cases g with
      | error e =>
        by_cases rescuable : e.kind.isRescuable
        · refine .inr ⟨rescuable, ?_⟩
          simp only [rescuable, if_true]
          refine h.bind (h.quiet (.setGlobal _ _)) fun _ => h.handleBody handles fun outcome => ?_
          rcases outcome with g | value
          · cases g with
            | retry => exact .inr ⟨trivial, h.polled fun resumes => ih fun _ => resumes⟩
            | _ => exact .inl rfl
          · exact .inl rfl
        · left
          simp only [rescuable]
          rfl
      | _ => exact .inl rfl
    · exact .inl rfl

theorem currentSelf : P Eval.currentSelf := h.map h.frame _

theorem currentClass : P Eval.currentClass := h.map h.frame _

theorem global (name : String) : P (Eval.global name) := h.read fun _ => rfl

theorem setGlobal (name : String) (value : Value) : P (Eval.setGlobal name value) :=
  h.quiet (.setGlobal name value)

theorem setLastCall (type : CallType) : P (Eval.setLastCall type) := h.quiet (.setLastCall type)

theorem closure (id : ClosureId) : P (Eval.closure id) := h.read fun _ => rfl

theorem newObject (cls : ClassId) : P (Eval.newObject cls) := h.quiet (.newObject cls)

theorem bindMethod (cls : ClassId) (name : String) (id : MethodId) :
    P (Eval.bindMethod cls name id) :=
  h.quiet (.library (fun l => ((), l.defineMethod cls name id)) (fun _ => rfl) fun _ => rfl)

theorem bindSingleton (cls : ClassId) (name : String) (id : MethodId) :
    P (Eval.bindSingleton cls name id) :=
  h.quiet (.library (fun l => ((), l.defineSingleton cls name id)) (fun _ => rfl) fun _ => rfl)

theorem applyBinary (op : BinaryOp) (left right : Value) : P (Eval.applyBinary op left right) := by
  unfold Eval.applyBinary
  split
  · exact h.pure _
  · exact h.raiseWith (fun s => by simp) fun s => ⟨nofun, rfl⟩

theorem constantValue (name : String) : P (Eval.constantValue name) :=
  h.readFact (fun result => ∀ e, result = .error e → e.IsFresh) (fun _ => rfl)
    (fun _ _ => Library.constant_fresh) fun _ fresh => h.map (h.orRaise fresh) _

theorem blockGiven : P Eval.blockGiven := h.map h.frame _

theorem method {β : Type} {k : Method → Eval β} (id : MethodId) (plain : ∀ m, k m.plain = k m)
    (holds : ∀ m, P (k m)) : P (Eval.method id >>= k) := by
  rw [method_eq id fun m => (plain m).symm]
  exact h.bind (h.read (Blind.method id)) holds

theorem checkVisibility (m : Method) (receiver : Value) (name : String) (type : CallType) :
    P (Eval.checkVisibility m receiver name type) := by
  unfold Eval.checkVisibility
  split
  · exact h.pure _
  · split
    · exact h.raiseWith (fun s => by simp) fun s => ⟨nofun, rfl⟩
    · refine h.bind h.currentSelf fun self => h.bind (h.read fun _ => rfl) fun isKin => ?_
      split
      · exact h.pure _
      · exact h.raiseWith (fun s => by simp) fun s => ⟨nofun, rfl⟩
    · exact h.pure _

theorem methodProc (name : String) : P (Eval.methodProc name) := by
  refine h.bind h.currentSelf fun receiver => h.bind (h.read fun _ => rfl) fun found => ?_
  cases found with
  | none => exact h.raiseWith (fun s => by simp) fun s => ⟨nofun, rfl⟩
  | some id => exact h.map (h.methodClosure id name) _

theorem passedBlock (value : Value) : P (Eval.passedBlock value) := by
  unfold Eval.passedBlock
  split
  · exact h.pure _
  · exact h.pure _
  · exact h.raiseWith (fun s => by simp) fun s => ⟨nofun, rfl⟩

theorem callWithPassed (value : Value) {call : Option ClosureId → Eval Value}
    (calls : ∀ block, P (call block)) : P (Eval.callWithPassed value call) := by
  refine h.bind (h.passedBlock value) fun block => ?_
  cases block with
  | none => exact calls none
  | some id =>
    refine h.bind (h.closure id) fun passed => h.handleBody (calls _) fun outcome => ?_
    split
    · exact h.orphaned passed.target outcome
    · exact .inl rfl

theorem callWithLiteral {literal : Literal StaticId Node} {call : ClosureId → Eval Value}
    (makes : P (makeClosure (.literal literal) .normal)) (calls : ∀ id, P (call id)) :
    P (Eval.callWithLiteral literal call) :=
  h.bind makes fun id => h.live (calls id)

section asking

variable {ask : Responder} (asks : ∀ request, P (ask request))
include asks

theorem callMethod (receiver : Value) (name : String) (args : List Value)
    (block : Option ClosureId) (type : CallType) :
    P (Eval.callMethod ask receiver name args block type) := by
  refine h.bind (h.read fun _ => rfl) fun found => ?_
  cases found with
  | none => exact h.raiseWith (fun s => by simp) fun s => ⟨nofun, rfl⟩
  | some id =>
    refine h.method id (fun m => rfl) fun m => ?_
    exact h.bind (h.checkVisibility m receiver name type) fun _ =>
      h.bind (h.setLastCall type) fun _ => asks _

theorem dispatch (receiver : Value) (name : String) (args : List Value)
    (block : BlockArg (Literal StaticId Node) Value) (type : CallType)
    (makes : ∀ literal, block = .literal literal → P (makeClosure (.literal literal) .normal)) :
    P (Eval.dispatch ask receiver name args block type) := by
  cases block with
  | absent => exact h.callMethod asks receiver name args none type
  | literal literal =>
    exact h.callWithLiteral (makes literal rfl) fun id =>
      h.callMethod asks receiver name args (some id) type
  | pass value =>
    exact h.callWithPassed value fun id => h.callMethod asks receiver name args id type

theorem superCall : P (Eval.superCall ask) := by
  refine h.bind h.frame fun frame => ?_
  split
  · refine h.bind h.env fun env => h.bind (h.read fun _ => rfl) fun args =>
      h.bind (h.read fun _ => rfl) fun found => ?_
    cases found with
    | none => exact h.raise ⟨nofun, rfl⟩
    | some id => exact h.bind (h.setLastCall _) fun _ => asks _
  · exact h.raise ⟨nofun, rfl⟩

theorem yieldArgs (args : List Value) : P (Eval.yieldArgs ask args) := by
  refine h.bind h.frame fun frame => ?_
  split
  · exact h.raise ⟨nofun, rfl⟩
  · split <;> exact asks _

theorem callClosure (id : ClosureId) (args : List Value) : P (Eval.callClosure ask id args) := by
  refine h.bind (h.closure id) fun called => ?_
  have rest : P (do
      let outcome ← Eval.observe
        (ask (.yield id { value := .array args.toArray, isPacked := true }))
      let isLive ← Eval.read (·.context.liveLiterals.contains called.target)
      ofOutcome
        (if called.kind = .proc ∨ ¬isLive then outcome.orphaned called.target else outcome)) := by
    refine h.attend (asks _) (fun _ => rfl) fun outcome isLive => ?_
    split
    · exact h.orphaned called.target outcome
    · exact .inl rfl
  dsimp only
  split
  · exact h.bind (h.read fun s => by simp) fun arity =>
      h.bind (h.checkArity arity args.length) fun _ => rest
  · exact rest

theorem yieldForever (block : ClosureId) (bound : Nat) (enough : bound = 0 → resumes) :
    P (Eval.yieldForever ask block bound) := by
  induction bound with
  | zero => exact h.spent (enough rfl)
  | succ bound ih =>
    exact h.polled fun resumes => h.bind (asks _) fun _ => ih fun _ => resumes

theorem yieldItems (block : ClosureId) (items : Array Value) (left : Nat) :
    P (Eval.yieldItems ask block items left) := by
  induction left with
  | zero => exact h.pure _
  | succ left ih => exact h.polled fun _ => h.bind (asks _) fun _ => ih

theorem yieldCount (block : ClosureId) (start : Int64) (count : Nat) :
    P (Eval.yieldCount ask block start count) := by
  induction count generalizing start with
  | zero => exact h.pure _
  | succ count ih => exact h.polled fun _ => h.bind (asks _) fun _ => ih _

theorem instantiate (cls : ClassId) (args : List Value) (block : Option ClosureId) :
    P (Eval.instantiate ask cls args block) := by
  refine h.bind (h.newObject cls) fun object => h.bind (h.read fun _ => rfl) fun found => ?_
  cases found with
  | some id => exact h.map (asks _) _
  | none =>
    dsimp only
    split
    · exact h.pure _
    · exact h.raise ⟨nofun, rfl⟩

end asking

theorem wrongReceiver {α : Type} (expected : String) (found : Value) :
    P (Eval.wrongReceiver expected found : Eval α) :=
  h.raiseWith (fun s => by simp) fun s => ⟨nofun, rfl⟩

theorem requireBlock (block : Option ClosureId) : P (Eval.requireBlock block) := by
  cases block with
  | none => exact h.raise ⟨nofun, rfl⟩
  | some id => exact h.pure id

theorem requireInt (value : Value) : P (Eval.requireInt value) := by
  unfold Eval.requireInt
  split
  · exact h.pure _
  · exact h.wrongReceiver _ _

theorem requireArray (value : Value) : P (Eval.requireArray value) := by
  unfold Eval.requireArray
  split
  · exact h.pure _
  · exact h.wrongReceiver _ _

theorem requireProc (value : Value) : P (Eval.requireProc value) := by
  unfold Eval.requireProc
  split
  · exact h.pure _
  · exact h.wrongReceiver _ _

theorem requireClass (value : Value) : P (Eval.requireClass value) := by
  unfold Eval.requireClass
  split
  · refine h.bind (h.read fun _ => rfl) fun isModule => ?_
    split
    · exact h.wrongReceiver _ _
    · exact h.pure _
  · exact h.wrongReceiver _ _

theorem copyMethod (id : MethodId) {change : Method → Method}
    (body : ∀ m, (change m).body = m.body) (target : ∀ m, (change m).target = m.target)
    (config : ∀ m, (change m).config = m.config ∨ (change m).config = .moduleFunction) :
    P (Eval.copyMethod id change) :=
  h.quiet (.copyMethod id change body target config)

theorem changeVisibility (cls : ClassId) (visibility : Visibility) (name : String) :
    P (Eval.changeVisibility cls visibility name) := by
  refine h.bind (h.read fun _ => rfl) fun found => ?_
  cases found with
  | none => exact h.raiseWith (fun s => by simp) fun s => ⟨nofun, rfl⟩
  | some id =>
    dsimp only
    split
    · refine h.bind (h.copyMethod id (fun _ => rfl) (fun _ => rfl) fun _ => .inl rfl) fun copy => ?_
      refine h.bind (h.copyMethod id (fun _ => rfl) (fun _ => rfl) fun _ => .inr rfl) fun singleton => ?_
      exact h.bind (h.bindSingleton cls name singleton) fun _ => h.bindMethod cls name copy
    · refine h.bind (h.copyMethod id (fun _ => rfl) (fun _ => rfl) fun _ => .inl rfl) fun copy => ?_
      exact h.bindMethod cls name copy

theorem changeAll (cls : ClassId) (visibility : Visibility) (names : List Value) :
    P (Eval.changeAll cls visibility names) := by
  induction names with
  | nil => exact h.pure _
  | cons name rest ih =>
    exact h.bind (h.read fun s => by simp) fun view =>
      h.bind (h.changeVisibility cls visibility view.text) fun _ => ih

theorem applyVisibility (visibility : Visibility) (args : List Value) :
    P (Eval.applyVisibility visibility args) := by
  unfold Eval.applyVisibility
  dsimp only
  split
  · exact h.map (h.visibility visibility) _
  · exact h.bind h.currentClass fun cls => h.map (h.changeAll cls visibility args) _

theorem builtin {ask : Responder} (asks : ∀ request, P (ask request)) (bound : Nat)
    (enough : bound = 0 → resumes) (builtin : Builtin) (call : Call) :
    P (builtin.run bound ask call) := by
  cases builtin with
  | inspect => exact h.map (h.read fun s => by simp) _
  | loop => exact h.bind (h.requireBlock _) fun block => h.yieldForever asks block bound enough
  | setVisibility visibility => exact h.applyVisibility visibility call.args
  | new =>
    exact h.bind (h.requireClass _) fun cls => h.instantiate asks cls call.args call.block
  | each =>
    exact h.bind (h.requireArray _) fun items => h.bind (h.requireBlock _) fun block =>
      h.map (h.yieldItems asks block items items.size) _
  | size => exact h.map (h.requireArray _) _
  | times =>
    exact h.bind (h.requireInt _) fun count => h.bind (h.requireBlock _) fun block =>
      h.map (h.yieldCount asks block 0 count.toInt.toNat) _
  | callClosure => exact h.bind (h.requireProc _) fun id => h.callClosure asks id call.args
  | arity =>
    exact h.bind (h.requireProc _) fun id => h.bind (h.closure id) fun called =>
      h.map (h.read fun s => by simp) _
  | isLambda => exact h.bind (h.requireProc _) fun id => h.map (h.closure id) _

theorem defineMethod (name : String) {definition : Definition}
    (makes : ∀ owner visibility, P (Eval.addMethod fun target =>
      ⟨owner, visibility, .frameAndScope, target, .interpreted definition {}⟩)) :
    P (Eval.defineMethod name definition) := by
  refine h.bind h.frame fun frame => h.bind h.currentClass fun owner => ?_
  dsimp only
  split
  · refine h.bind (makes owner .priv) fun made => ?_
    refine h.bind (h.copyMethod made (fun _ => rfl) (fun _ => rfl) fun _ => .inr rfl) fun singleton => ?_
    exact h.bind (h.bindMethod owner name made) fun _ =>
      h.map (h.bindSingleton owner name singleton) _
  · exact h.bind (makes owner frame.visibility) fun made => h.map (h.bindMethod owner name made) _

theorem openClass (name : String) (superclass : Option String) (isModule : Bool) :
    P (Eval.openClass name superclass isModule) := by
  rw [Eval.openClass_eq]
  refine h.readFact (fun result => ∀ e, result = .error e → e.IsFresh) ?_ ?_
    fun result fresh => h.bind (h.orRaise fresh) fun id => h.map (h.quiet ?_) _
  · intro s
    dsimp only
    rw [show s.bare.shared.library = s.shared.library.plain from rfl, Library.openClass_plain]
    cases s.shared.library.openClass name superclass isModule <;> rfl
  · intro s e failed
    obtain ⟨id, result⟩ | ⟨cls, result⟩ | ⟨error, fresh, result⟩ :=
      s.shared.library.openClass_cases name superclass isModule <;> rw [result] at failed <;>
      cases failed
    exact fresh
  · exact .library (fun l => ((), l.opened name superclass isModule))
      (fun l => by rw [Library.opened_plain]) fun l => Library.opened_methods l _ _ _

end Steering

end CallEngine
