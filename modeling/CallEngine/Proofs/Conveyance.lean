import CallEngine.Proofs.Requests
/-! Everything that evaluates conveys returns and awaited breaks: trees, code, calls, built-in methods
and the binding of arguments. Only the end of a method or of a closure may make something else of
them. -/
namespace CallEngine
open Eval

namespace Passage

variable {p : Passage}

/-- The signal is no break that a closure of another kind makes an error of. -/
def Spares (p : Passage) (made : Closure) : Prop :=
  ∀ target value, p.signal = .stop (some target) value → made.target = target → made.kind = .normal

namespace IsOpen

variable (opened : p.IsOpen)
include opened

theorem form : (∃ target value, p.signal = .leave target value) ∨
    ∃ target value, p.signal = .stop (some target) value :=
  opened.aim.imp_right fun ⟨target, value, stops, _⟩ => ⟨target, value, stops⟩

theorem spares {s : State} (waits : p.waits s) (id : ClosureId) :
    p.Spares (s.shared.closure id) := by
  intro target value same own
  rcases opened.aim with ⟨aim, given, leaves⟩ | ⟨aim, given, stops, awaits⟩
  · cases leaves.symm.trans same
  · cases stops.symm.trans same
    exact (awaits s waits).kind id own

theorem orphaned {target : Target}
    (other : ∀ aim value, p.signal = .stop (some aim) value → aim ≠ target) :
    Outcome.orphaned target (.error p.signal) = .error p.signal := by
  rcases opened.form with ⟨aim, value, leaves⟩ | ⟨aim, value, stops⟩
  · rw [leaves]
    rfl
  · have differ := other aim value stops
    simp [Outcome.orphaned, stops, differ]

theorem atLiteral {target : Target}
    (other : ∀ aim value, p.signal = .stop (some aim) value → aim ≠ target) :
    Outcome.atLiteral target (.error p.signal) = .error p.signal := by
  rcases opened.form with ⟨aim, value, leaves⟩ | ⟨aim, value, stops⟩
  · rw [leaves]
    rfl
  · have differ := other aim value stops
    simp [Outcome.atLiteral, stops, differ]

end IsOpen

namespace Tracks

variable (opened : p.IsOpen)
include opened

theorem closure {f g : Closure → Eval Value} (id : ClosureId) (steady : ∀ made, Steady (f made))
    (rest : ∀ made, p.Spares made → p.Conveys (f made) (g made)) :
    p.Conveys (Eval.closure id >>= f) (Eval.closure id >>= g) :=
  ⟨Steady.compositional.bind (Steady.control.closure id) steady,
    fun s waits => (rest _ (opened.spares waits id)).runs s waits⟩

theorem callWithPassed (value : Value) {call call' : Option ClosureId → Eval Value}
    (calls : ∀ block, p.Conveys (call block) (call' block)) :
    p.Conveys (Eval.callWithPassed value call) (Eval.callWithPassed value call') := by
  refine after opened (Steady.control.passedBlock value) fun block => ?_
  cases block with
  | none => exact calls none
  | some id =>
    have steady (made : Closure) := Steady.compositional.bind
      (Steady.compositional.observe (calls (some id)).steady) fun outcome => Steady.ofOutcome
        (if made.kind = .proc then outcome.orphaned made.target else outcome)
    refine closure opened id steady fun made spares => ?_
    refine handle opened (calls (some id)) (fun _ => same (.ofOutcome _)) fun u _ _ => ?_
    split
    · next proc =>
      rw [opened.orphaned]
      · rfl
      · intro aim value stops own
        cases proc.symm.trans (spares aim value stops own.symm)
    · rfl

/-- A new literal has another identity than any that is awaited. -/
theorem callWithLiteral (literal : Literal StaticId Node) {call call' : ClosureId → Eval Value}
    (calls : ∀ id, p.Conveys (call id) (call' id)) :
    p.Conveys (Eval.callWithLiteral literal call) (Eval.callWithLiteral literal call') := by
  have h := Steady.compositional
  refine ⟨Steady.control.callWithLiteral (h.makeClosure _ _) fun id => (calls id).steady,
    fun s waits => ?_⟩
  cases result : makeClosure (.literal literal) .normal s with
  | error halt t => exact .inl ((bind_error result).trans (bind_error result).symm)
  | ok id t =>
    obtain ⟨frame, env, -, made, -⟩ := makeClosure_ok result
    have waits' := opened.resumes waits ((h.makeClosure _ _).resumes (e := .ok id) result)
    have inside := (calls id).runs _ (opened.enters id waits')
    have live := Agree.whileLive opened inside
    have step (call : ClosureId → Eval Value) : Eval.callWithLiteral literal call s =
        (whileLive (t.shared.closure id).target (call id) >>= fun outcome =>
          ofOutcome (outcome.atLiteral (t.shared.closure id).target)) t := bind_ok result
    rw [step, step]
    rcases live with same | ⟨⟨v, cut⟩, u, landed, ends⟩
    · left
      simp only [Bind.bind, EStateM.bind, same]
    · right
      refine ⟨⟨v, bind_error cut⟩, u, landed, ?_⟩
      rw [bind_ok ends, opened.atLiteral]
      · rfl
      · rintro aim value stops rfl
        rcases opened.aim with ⟨aim', given, leaves⟩ | ⟨aim', given, stops', awaits⟩
        · cases leaves.symm.trans stops
        · cases stops'.symm.trans stops
          have given := (awaits s waits).given
          rw [made] at given
          exact absurd given (Nat.lt_irrefl _)

theorem redoing {body body' : Eval Value} (holds : p.Conveys body body') (bound : Nat) :
    p.Tracks (.ok (.error p.signal)) (Eval.redoing body bound) (Eval.redoing body' bound) := by
  have h := Steady.compositional
  induction bound with
  | zero => exact same h.exhausted
  | succ bound ih =>
    refine handle opened holds (fun outcome => ?_) fun u _ _ => ?_
    · split
      · exact after opened h.poll fun _ => ih
      · exact same (h.pure _)
    · rcases opened.form with ⟨_, _, form⟩ | ⟨_, _, form⟩ <;> rw [form] <;> rfl

theorem looping {test test' body body' : Eval Value} (tests : p.Conveys test test')
    (holds : p.Conveys body body') (bound iterations : Nat) :
    p.Conveys (Eval.looping test body bound iterations)
      (Eval.looping test' body' bound iterations) := by
  have h := Steady.compositional
  induction iterations with
  | zero => exact same h.exhausted
  | succ iterations ih =>
    refine after opened h.poll fun _ => bind opened tests fun value => ?_
    split
    · refine andThen opened (redoing opened holds bound) (fun outcome => ?_) fun u _ _ => ?_
      · split
        · exact ih
        · exact ih
        · exact same (h.pure _)
        · exact same (.ofOutcome (.error _))
      · rcases opened.form with ⟨_, _, form⟩ | ⟨_, _, form⟩ <;> rw [form] <;> rfl
    · exact same (h.pure _)

theorem rescuing {body body' handler handler' : Eval Value} (holds : p.Conveys body body')
    (handles : p.Conveys handler handler') (bound : Nat) :
    p.Conveys (Eval.rescuing body handler bound) (Eval.rescuing body' handler' bound) := by
  have h := Steady.compositional
  induction bound with
  | zero => exact same h.exhausted
  | succ bound ih =>
    refine handle opened holds (fun outcome => ?_) fun u _ _ => ?_
    · split
      · split
        · refine after opened (Steady.control.setGlobal _ _) fun _ =>
            handle opened handles (fun outcome => ?_) fun u _ _ => ?_
          · split
            · exact after opened h.poll fun _ => ih
            · exact same (.ofOutcome _)
          · rcases opened.form with ⟨_, _, form⟩ | ⟨_, _, form⟩ <;> rw [form] <;> rfl
        · exact same (.ofOutcome (.error _))
      · exact same (.ofOutcome _)
    · rcases opened.form with ⟨_, _, form⟩ | ⟨_, _, form⟩ <;> rw [form] <;> rfl

theorem storage : Storage fun _ x => p.Conveys x x where
  pure a := same (Steady.storage.pure a)
  bind := bind opened
  read view := same (Steady.storage.read view)
  fault fault := same (Steady.storage.fault fault)
  memory evolves := same (Steady.storage.memory evolves)

theorem classBody {name : String} {superclass : Option String} {isModule : Bool} {scope : StaticId}
    {body body' : Eval Value} (holds : p.Conveys body body') :
    p.Conveys (Eval.classBody name superclass isModule scope body)
      (Eval.classBody name superclass isModule scope body') :=
  after opened (Steady.control.openClass name superclass isModule) fun _ =>
    after opened (Steady.storage.enterScope scope []) fun env =>
      withFrame opened (withScope opened holds env) _

theorem toplevelOf {body body' : Eval Value} (holds : p.Conveys body body') (scope : StaticId) :
    p.Conveys (Engine.toplevelOf scope body) (Engine.toplevelOf scope body') := by
  refine after opened (Steady.compositional.read fun _ => rfl) fun main => ?_
  refine after opened (Steady.storage.enterScope scope []) fun env => ?_
  exact withFrame opened (withScope opened holds env) _

section asking

variable {ask other : Responder} (asks : ∀ request, p.Conveys (ask request) (other request))
include asks

theorem callMethod (receiver : Value) (name : String) (args : List Value)
    (block : Option ClosureId) (type : CallType) :
    p.Conveys (Eval.callMethod ask receiver name args block type)
      (Eval.callMethod other receiver name args block type) := by
  have c := Steady.control
  refine after opened (.read _) fun found => ?_
  cases found with
  | none => exact same (c.raiseWith (fun s => by simp) fun s => ⟨nofun, rfl⟩)
  | some id =>
    exact after opened (.read _) fun m => after opened (c.checkVisibility m receiver name type)
      fun _ => after opened (c.setLastCall type) fun _ => asks _

theorem superCall : p.Conveys (Eval.superCall ask) (Eval.superCall other) := by
  have c := Steady.control
  refine after opened c.frame fun frame => ?_
  split
  · refine after opened c.env fun env => after opened (.read _) fun args =>
      after opened (.read _) fun found => ?_
    cases found with
    | none => exact same (c.raise ⟨nofun, rfl⟩)
    | some id => exact after opened (c.setLastCall _) fun _ => asks _
  · exact same (c.raise ⟨nofun, rfl⟩)

theorem yieldArgs (args : List Value) :
    p.Conveys (Eval.yieldArgs ask args) (Eval.yieldArgs other args) := by
  have c := Steady.control
  refine after opened c.frame fun frame => ?_
  split
  · exact same (c.raise ⟨nofun, rfl⟩)
  · split <;> exact asks _

theorem callClosure (id : ClosureId) (args : List Value) :
    p.Conveys (Eval.callClosure ask id args) (Eval.callClosure other id args) := by
  have c := Steady.control
  have yields := asks (.yield id { value := .array args.toArray, isPacked := true })
  have settles (made : Closure) (spares : p.Spares made) : p.Conveys
      (settling made (ask (.yield id { value := .array args.toArray, isPacked := true })))
      (settling made (other (.yield id { value := .array args.toArray, isPacked := true }))) := by
    refine handle opened yields (fun outcome => after opened (.read _) fun isLive =>
      same (.ofOutcome _)) fun u _ waits => ?_
    change ofOutcome (if made.kind = .proc ∨ ¬u.context.liveLiterals.contains made.target then
      _ else _) u = _
    split
    · next isOver =>
      rw [opened.orphaned]
      · rfl
      · rintro aim value stops rfl
        rcases isOver with proc | notLive
        · cases proc.symm.trans (spares _ value stops rfl)
        · rcases opened.aim with ⟨aim', given, leaves⟩ | ⟨aim', given, stops', awaits⟩
          · cases leaves.symm.trans stops
          · cases stops'.symm.trans stops
            exact notLive (List.contains_iff_mem.2 (awaits u waits).live)
    · rfl
  refine ⟨c.callClosure (fun request => (asks request).steady) id args, fun s waits => ?_⟩
  rcases callClosure_cases id args s with ⟨e, refused⟩ | yielded
  · exact .inl ((refused ask).trans (refused other).symm)
  · rw [yielded, yielded]
    exact (settles _ (opened.spares waits id)).runs s waits

theorem yieldForever (block : ClosureId) (bound : Nat) :
    p.Conveys (Eval.yieldForever ask block bound) (Eval.yieldForever other block bound) := by
  have h := Steady.compositional
  induction bound with
  | zero => exact same h.exhausted
  | succ bound ih => exact after opened h.poll fun _ => bind opened (asks _) fun _ => ih

theorem yieldItems (block : ClosureId) (items : Array Value) (left : Nat) :
    p.Conveys (Eval.yieldItems ask block items left) (Eval.yieldItems other block items left) := by
  have h := Steady.compositional
  induction left with
  | zero => exact same (h.pure _)
  | succ left ih => exact after opened h.poll fun _ => bind opened (asks _) fun _ => ih

theorem yieldCount (block : ClosureId) (start : Int64) (count : Nat) :
    p.Conveys (Eval.yieldCount ask block start count)
      (Eval.yieldCount other block start count) := by
  have h := Steady.compositional
  induction count generalizing start with
  | zero => exact same (h.pure _)
  | succ count ih => exact after opened h.poll fun _ => bind opened (asks _) fun _ => ih _

theorem instantiate (cls : ClassId) (args : List Value) (block : Option ClosureId) :
    p.Conveys (Eval.instantiate ask cls args block) (Eval.instantiate other cls args block) := by
  have c := Steady.control
  refine after opened (c.newObject cls) fun object => after opened (.read _) fun found => ?_
  cases found with
  | some id => exact map opened (asks _) _
  | none =>
    dsimp only
    split
    · exact same (c.pure _)
    · exact same (c.raise ⟨nofun, rfl⟩)

theorem builtin (bound : Nat) (builtin : Builtin) (call : Call) :
    p.Conveys (builtin.run bound ask call) (builtin.run bound other call) := by
  have c := Steady.control
  cases builtin with
  | loop =>
    exact after opened (c.requireBlock _) fun block => yieldForever opened asks block bound
  | new =>
    exact after opened (c.requireClass _) fun cls =>
      instantiate opened asks cls call.args call.block
  | each =>
    exact after opened (c.requireArray _) fun items => after opened (c.requireBlock _) fun block =>
      map opened (yieldItems opened asks block items items.size) _
  | times =>
    exact after opened (c.requireInt _) fun count => after opened (c.requireBlock _) fun block =>
      map opened (yieldCount opened asks block 0 count.toInt.toNat) _
  | callClosure =>
    exact after opened (c.requireProc _) fun id => callClosure opened asks id call.args
  | inspect => exact same (c.map (.read _) _)
  | setVisibility visibility => exact same (c.applyVisibility visibility call.args)
  | size => exact same (c.map (c.requireArray _) _)
  | arity =>
    exact same (c.bind (c.requireProc _) fun id => c.bind (c.closure id) fun called =>
      c.map (.read _) _)
  | isLambda => exact same (c.bind (c.requireProc _) fun id => c.map (c.closure id) _)

theorem performs (act : Act) : p.Conveys (act.perform ask) (act.perform other) := by
  cases act with
  | call receiver name args block type => exact callMethod opened asks receiver name args block type
  | yield args => exact yieldArgs opened asks args
  | superCall => exact superCall opened asks
  | makeProc literal kind => 
    exact same (Steady.compositional.map (Steady.compositional.makeClosure _ kind) _)
  | methodRef name => exact same (Steady.control.methodProc name)
  | doReturn value => exact same (Steady.compositional.leave value)
  | define name definition => exact same (Steady.compositional.defineMethod name definition)

theorem congruence (bound : Nat) : Congruence (fun (_ : Unit) _ x y => p.Conveys x y)
    (fun _ _ => True) bound (Act.perform ask) (Act.perform other) where
  part _ _ := trivial
  pure a := same (Steady.compositional.pure a)
  bind := bind opened
  currentSelf := same Steady.control.currentSelf
  localGet _ := same (Steady.storage.bind Steady.control.env fun env =>
    Steady.storage.readVariable env _ _)
  localSet value _ := same (Steady.storage.bind Steady.control.env fun env =>
    Steady.storage.writeVariable env _ _ value)
  global name := same (Steady.control.global name)
  setGlobal name value := same (Steady.control.setGlobal name value)
  binary op left right := same (Steady.control.applyBinary op left right)
  jump jumps := same (Steady.compositional.jump jumps)
  raised _ := same (Steady.control.raiseWith (fun s => by simp) fun _ => ⟨nofun, rfl⟩)
  constant name := same (Steady.control.constantValue name)
  blockGiven := same Steady.control.blockGiven
  literal _ calls := callWithLiteral opened _ calls
  passed value calls := callWithPassed opened value calls
  looping tests runs := looping opened tests runs bound bound
  rescuing runs handles := rescuing opened runs handles bound
  classBody _ runs := classBody opened (runs () trivial)
  act _ := performs opened asks _

theorem dispatch (receiver : Value) (name : String) (args : List Value)
    (block : BlockArg (Literal StaticId Node) Value) (type : CallType) :
    p.Conveys (Eval.dispatch ask receiver name args block type)
      (Eval.dispatch other receiver name args block type) :=
  (congruence opened asks 0).withBlock (p := ()) (fun _ _ => trivial) fun id =>
    callMethod opened asks receiver name args id type

theorem eval (bound : Nat) (node : Node) :
    p.Conveys (node.eval bound ask) (node.eval bound other) :=
  (congruence opened asks bound).eval (p := ()) node trivial

theorem exec (bound : Nat) (code : Code) :
    p.Conveys (code.exec bound ask) (code.exec bound other) :=
  (congruence opened asks bound).exec (p := ()) code

theorem run (bound : Nat) (body : Body) :
    p.Conveys (body.run bound ask) (body.run bound other) := by
  cases body with
  | tree node => exact eval opened asks bound node
  | compiled code => exact exec opened asks bound code

theorem bindArguments (bound : Nat) (params : Params Node) (args : List Value)
    (block : Option ClosureId) :
    p.Conveys (Eval.bindArguments (Tree.eval bound ask) params args block)
      (Eval.bindArguments (Tree.eval bound other) params args block) :=
  (congruence opened asks bound).bindArguments (p := ()) (storage opened) (same Steady.control.env)
    params args block

theorem runBody (bound : Nat) (m : Method) (params : Params Node) (call : Call) (body : Body) :
    p.Tracks (Outcome.atMethod m.target (.error p.signal))
      (Eval.runBody bound ask m params call (body.run bound ask))
      (Eval.runBody bound other m params call (body.run bound other)) := by
  have runs := bind opened (bindArguments opened asks bound params call.args call.block) fun _ =>
    run opened asks bound body
  refine entering opened (handle opened runs (fun outcome => ?_) fun u _ _ => ?_) _ _
  · exact after opened (.read _) fun outcome => same (.ofOutcome outcome)
  · -- Only errors get a backtrace.
    change ofOutcome ((Outcome.atMethod m.target (.error p.signal)).traced u.context.stack) u = _
    rcases opened.form with ⟨aim, value, form⟩ | ⟨aim, value, form⟩
    · simp only [form, Outcome.atMethod]
      split <;> rfl
    · rw [form]
      rfl

theorem yieldLiteral (bound : Nat) (closure : Closure) (literal : Literal StaticId Node)
    (delivery : Delivery) :
    p.Tracks (Outcome.atClosure closure.target closure.kind (.error p.signal))
      (Eval.yieldLiteral bound ask closure literal delivery)
      (Eval.yieldLiteral bound other closure literal delivery) := by
  have m := Steady.storage
  refine after opened (m.enterScope _ _) fun env =>
    withFrame opened (withScope opened (after opened (m.assign env _ _ _) fun _ => ?_) env) _
  refine andThen opened (redoing opened (eval opened asks bound literal.body) bound)
    (fun outcome => same (.ofOutcome _)) fun u _ _ => ?_
  change ofOutcome (Outcome.atClosure closure.target closure.kind (.error p.signal)) u = _
  cases Outcome.atClosure closure.target closure.kind (.error p.signal) <;> rfl

end asking

end Tracks

end Passage

/-- What the end of a method makes of an outcome. -/
def Method.boundary (m : Method) (outcome : Outcome) : Outcome :=
  match m.body with
  | .builtin _ => outcome
  | _ => outcome.atMethod m.target

/-- What the end of a closure makes of an outcome. -/
def Closure.boundary (closure : Closure) (outcome : Outcome) : Outcome :=
  match closure.body with
  | .literal _ => outcome.atClosure closure.target closure.kind
  | .method .. => outcome

def Request.boundary (s : State) : Request → Outcome → Outcome
  | .invoke id _ => (s.shared.library.method id).boundary
  | .yield id _ => (s.shared.closure id).boundary

theorem Method.HasBody.boundary {m : Method} (hasBody : m.HasBody) (outcome : Outcome) :
    m.boundary outcome = outcome.atMethod m.target := by
  unfold Method.boundary
  split
  · next builtin own => exact absurd own (hasBody builtin)
  · rfl

theorem State.promote_resumes (s : State) (id : MethodId) (name : String) :
    s.Resumes (s.promote id name).2 := by
  have context := s.promote_context id name
  exact ⟨(State.Advances.promote s id name).shared, by rw [context], context ▸ .refl _⟩

theorem Passage.respond {p : Passage} (opened : p.IsOpen) {ask other : Responder}
    (asks : ∀ request, p.Conveys (ask request) (other request)) (bound : Nat) (request : Request)
    {s : State} (waits : p.waits s) :
    p.Agree (request.boundary s (.error p.signal)) (Eval.respond bound ask request s)
      (Eval.respond bound other request s) := by
  cases request with
  | invoke id call =>
    change p.Agree ((s.shared.library.method id).boundary (.error p.signal))
      (Eval.invoke bound ask id call s) (Eval.invoke bound other id call s)
    by_cases own : ∃ builtin, (s.shared.library.method id).body = .builtin builtin
    · obtain ⟨builtin, own⟩ := own
      have found (ask : Responder) : Eval.invoke bound ask id call s = _ :=
        bind_ok (x := Eval.method id) rfl
      simp only [own] at found
      rw [found, found]
      simp only [Method.boundary, own]
      exact (Tracks.entering opened (Tracks.builtin opened asks bound builtin call) _ _).runs s waits
    · have hasBody : (s.shared.library.method id).HasBody := fun builtin same => own ⟨builtin, same⟩
      obtain ⟨params, body, s₁, ready, runs⟩ := invoke_runs bound call hasBody
      have waits' : p.waits s₁ := by
        rcases ready with rfl | rfl
        · exact waits
        · exact opened.resumes waits (s.promote_resumes id call.name)
      rw [hasBody.boundary, runs, runs]
      exact (Tracks.runBody opened asks bound _ params call body).runs s₁ waits'
  | yield id delivery =>
    change p.Agree ((s.shared.closure id).boundary (.error p.signal))
      (Eval.yieldTo bound ask id delivery s) (Eval.yieldTo bound other id delivery s)
    have found (ask : Responder) : Eval.yieldTo bound ask id delivery s = _ :=
      bind_ok (x := Eval.closure id) rfl
    cases own : (s.shared.closure id).body with
    | literal literal =>
      simp only [own] at found
      rw [found, found]
      simp only [Closure.boundary, own]
      exact (Tracks.yieldLiteral opened asks bound _ literal delivery).runs s waits
    | method method name =>
      simp only [own] at found
      rw [found, found]
      simp only [Closure.boundary, own]
      exact (asks _).runs s waits

end CallEngine
