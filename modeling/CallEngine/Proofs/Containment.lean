import CallEngine.Proofs.Composition
/-! What can cross the end of a method or of a closure. The body may end with any signal; its end
lets errors, returns to somewhere else and claimed breaks through, and built-in methods only pass on
what the closures they yield to let through. -/
namespace CallEngine
open Eval

/-- Neither next, nor redo, nor a break that no closure has claimed. -/
def Signal.CrossesCalls : Signal → Prop
  | .next _ | .redo | .stop none _ => False
  | _ => True

/-- What leaves a method that runs a body of its own. -/
structure Signal.LeavesMethod (target : Target) (g : Signal) : Prop where
  foreign : g.isLocal = false
  misses : g.Misses target

/-- What leaves the closure that is made of a literal. -/
structure Signal.LeavesClosure (target : Target) (kind : ClosureKind) (g : Signal) : Prop where
  crosses : g.CrossesCalls
  misses : kind = .lambda → g.Misses target

theorem Signal.LeavesMethod.crosses {target : Target} {g : Signal} (leaves : g.LeavesMethod target) :
    g.CrossesCalls := by
  have foreign := leaves.foreign
  cases g with
  | stop aim value =>
    cases aim with
    | none => cases foreign
    | some => trivial
  | next | redo => cases foreign
  | error | leave | retry => trivial

theorem Outcome.atMethod_leaves {target : Target} {outcome : Outcome} {g : Signal}
    (ends : outcome.atMethod target = .error g) : g.LeavesMethod target := by
  refine ⟨?_, fun value same => outcome.atMethod_ne target value (same ▸ ends)⟩
  unfold Outcome.atMethod at ends
  split at ends
  · split at ends <;> cases ends
    rfl
  · split at ends <;> cases ends
    · rfl
    · next foreign => simpa using foreign
  · next ok => exact absurd ends (ok g)

theorem Outcome.traced_leaves {target : Target} {outcome : Outcome} {stack : FrameStack}
    {g : Signal} (leaves : ∀ g, outcome = .error g → g.LeavesMethod target)
    (ends : outcome.traced stack = .error g) : g.LeavesMethod target := by
  unfold Outcome.traced at ends
  split at ends
  · split at ends <;> cases ends <;> exact ⟨rfl, nofun⟩
  · exact leaves g ends

/-- A closure passes on redo only, which its own loop has seen to. -/
theorem Outcome.atClosure_leaves {target : Target} {kind : ClosureKind} {outcome : Outcome}
    {g : Signal} (notRedo : outcome ≠ .error .redo)
    (ends : outcome.atClosure target kind = .error g) : g.LeavesClosure target kind := by
  refine ⟨?_, ?_⟩
  · rcases outcome with g' | value
    · cases g' with
      | redo => exact absurd rfl notRedo
      | next => cases ends
      | leave aim value =>
        simp only [Outcome.atClosure] at ends
        split at ends <;> cases ends
        trivial
      | stop aim value =>
        cases aim with
        | none =>
          simp only [Outcome.atClosure] at ends
          split at ends <;> cases ends
          trivial
        | some aim =>
          cases ends
          trivial
      | error | retry =>
        cases ends
        trivial
    · cases ends
  · rintro rfl value rfl
    exact outcome.atClosure_ne target value ends

/-- A body that is run again on redo ends otherwise. -/
theorem Eval.redoing_ne_redo {body : Eval Value} {bound : Nat} {s s' : State} {outcome : Outcome}
    (ends : redoing body bound s = .ok outcome s') : outcome ≠ .error .redo := by
  induction bound generalizing s with
  | zero => cases ends
  | succ bound ih =>
    simp only [redoing, Bind.bind, EStateM.bind] at ends
    split at ends
    · next first t result =>
      split at ends
      · simp only [EStateM.bind] at ends
        split at ends
        · exact ih ends
        · cases ends
      · next notRedo =>
        cases ends
        rintro rfl
        exact notRedo rfl
    · cases ends

section

variable (bound : Nat) (ask : Responder)

/-- Whatever the parameters, the defaults, the body and the configuration are. -/
theorem Eval.runBody_emits (m : Method) (params : Params Node) (call : Call) (body : Eval Value) :
    Emits (Signal.LeavesMethod m.target) (runBody bound ask m params call body) := by
  refine .entering (fun e => ⟨rfl, nofun⟩) (.bind (.observe _) fun outcome => ?_) _ _
  exact .readOutcome fun s g ends => Outcome.traced_leaves (fun _ => Outcome.atMethod_leaves) ends

theorem Eval.yieldLiteral_emits (closure : Closure) (literal : Literal StaticId Node)
    (delivery : Delivery) : Emits (Signal.LeavesClosure closure.target closure.kind)
      (yieldLiteral bound ask closure literal delivery) := by
  have errors (e : EvalError) : Signal.LeavesClosure closure.target closure.kind (.error e) :=
    ⟨trivial, fun _ => nofun⟩
  refine .bind ((Emits.storage _).enterScope _ _) fun env => .withFrame errors (.withScope ?_ env) _
  refine .bind ((Emits.storage _).assign _ _ _ _) fun _ => ?_
  refine .bindResult (.redoing errors _ bound) fun s outcome s' ends => ?_
  exact .ofOutcome fun g => Outcome.atClosure_leaves (redoing_ne_redo ends)

end

/-- A body as it is run. -/
inductive Body where
  | tree (node : Node)
  | compiled (code : Code)

def Body.run (bound : Nat) (ask : Responder) : Body → Eval Value
  | tree node => node.eval bound ask
  | compiled code => code.exec bound ask

theorem Framing.bodyRun {P : EvalProperty} {resumes : Prop} (h : Framing P resumes)
    {ask : Responder} (asks : ∀ request, P (ask request)) (bound : Nat)
    (enough : bound = 0 → resumes) (body : Body) : P (body.run bound ask) := by
  cases body with
  | tree node => exact h.eval asks bound enough node
  | compiled code => exact h.exec asks bound enough code

theorem Eval.codeToRun_eq (id : MethodId) (name : String) (s : State) :
    ∃ code, codeToRun id name s = .ok code (s.promote id name).2 := by
  change ∃ code, (if (s.promote id name).2.shared.monitor.isActive then pure none
    else pure (s.promote id name).1 : Eval (Option Code)) (s.promote id name).2 = _
  split <;> exact ⟨_, rfl⟩

/-- Which body is run is settled before anything is asked. -/
theorem Eval.invoke_runs (bound : Nat) {id : MethodId} (call : Call) {s : State}
    (hasBody : (s.shared.library.method id).HasBody) :
    ∃ params body s₁, (s₁ = s ∨ s₁ = (s.promote id call.name).2) ∧ ∀ ask,
      invoke bound ask id call s =
        runBody bound ask (s.shared.library.method id) params call (Body.run bound ask body) s₁ := by
  have found (ask : Responder) : invoke bound ask id call s = _ := bind_ok (x := Eval.method id) rfl
  cases own : (s.shared.library.method id).body with
  | interpreted definition promotion =>
    simp only [own] at found
    obtain ⟨code, ready⟩ := codeToRun_eq id call.name s
    have step (ask : Responder) := (found ask).trans (bind_ok ready)
    cases code with
    | none => exact ⟨_, .tree definition.body, _, .inr rfl, step⟩
    | some code => exact ⟨_, .compiled code, _, .inr rfl, step⟩
  | compiled scope params code =>
    simp only [own] at found
    exact ⟨params, .compiled code, s, .inl rfl, found⟩
  | builtin builtin => exact absurd own (hasBody builtin)

theorem Eval.invoke_leaves {bound : Nat} {ask : Responder} {id : MethodId} {call : Call}
    {s s' : State} {g : Signal} (hasBody : (s.shared.library.method id).HasBody)
    (ends : invoke bound ask id call s = .error (.signal g) s') :
    g.LeavesMethod (s.shared.library.method id).target := by
  obtain ⟨params, body, s₁, -, runs⟩ := invoke_runs bound call hasBody
  rw [runs] at ends
  exact runBody_emits bound ask _ _ _ _ _ _ _ ends

theorem Eval.invoke_crosses {bound : Nat} {ask : Responder}
    (asks : ∀ request, Emits Signal.CrossesCalls (ask request)) (id : MethodId) (call : Call) :
    Emits Signal.CrossesCalls (invoke bound ask id call) := by
  have errors (e : EvalError) : (Signal.error e).CrossesCalls := trivial
  intro s g s' ends
  by_cases own : ∃ builtin, (s.shared.library.method id).body = .builtin builtin
  · obtain ⟨builtin, own⟩ := own
    simp only [invoke, Eval.method, Bind.bind, EStateM.bind, Eval.read, own] at ends
    have runs := (Emits.control errors).builtin asks bound (fun _ => trivial) builtin call
    exact Emits.entering errors runs _ _ _ _ _ ends
  · exact (invoke_leaves (fun builtin same => own ⟨builtin, same⟩) ends).crosses

theorem Eval.yieldTo_leaves {bound : Nat} {ask : Responder} {id : ClosureId} {delivery : Delivery}
    {s s' : State} {g : Signal} {literal : Literal StaticId Node}
    (own : (s.shared.closure id).body = .literal literal)
    (ends : yieldTo bound ask id delivery s = .error (.signal g) s') :
    g.LeavesClosure (s.shared.closure id).target (s.shared.closure id).kind := by
  simp only [yieldTo, Eval.closure, Bind.bind, EStateM.bind, Eval.read, own] at ends
  exact yieldLiteral_emits bound ask _ _ _ _ _ _ ends

theorem Eval.yieldTo_crosses {bound : Nat} {ask : Responder}
    (asks : ∀ request, Emits Signal.CrossesCalls (ask request)) (id : ClosureId)
    (delivery : Delivery) : Emits Signal.CrossesCalls (yieldTo bound ask id delivery) := by
  intro s g s' ends
  cases own : (s.shared.closure id).body with
  | literal literal => exact (yieldTo_leaves own ends).crosses
  | method method name =>
    simp only [yieldTo, Eval.closure, Bind.bind, EStateM.bind, Eval.read, own] at ends
    exact asks _ _ _ _ ends

/-- Every call and every yield, by induction on how many may be inside one another. -/
theorem Eval.answer_crosses (fuel : Nat) (request : Request) :
    Emits Signal.CrossesCalls (answer fuel request) := by
  induction fuel generalizing request with
  | zero => exact fun _ _ _ => nofun
  | succ fuel ih =>
    cases request with
    | invoke id call => exact invoke_crosses ih id call
    | yield id delivery => exact yieldTo_crosses ih id delivery

/-- A yield after which a break that nothing waits for is an error. -/
def Eval.settling (called : Closure) (yielded : Eval Value) : Eval Value := do
  let outcome ← observe yielded
  let isLive ← Eval.read (·.context.liveLiterals.contains called.target)
  ofOutcome (if called.kind = .proc ∨ ¬isLive then outcome.orphaned called.target else outcome)

/-- A closure that is called refuses the arguments, or is yielded to. -/
theorem Eval.callClosure_cases (id : ClosureId) (args : List Value) (s : State) :
    (∃ e, ∀ ask, callClosure ask id args s = .error (.signal (.error e)) s) ∨
    ∀ ask, callClosure ask id args s = settling (s.shared.closure id)
      (ask (.yield id { value := .array args.toArray, isPacked := true })) s := by
  have found (ask : Responder) : callClosure ask id args s = _ := bind_ok (x := Eval.closure id) rfl
  simp only [found]
  split
  · change (∃ e, ∀ ask, (orRaise _ >>= fun _ => _) s = .error (.signal (.error e)) s) ∨
      ∀ ask, (orRaise _ >>= fun _ => _) s = _
    cases ((s.shared.arity (s.shared.closure id)).check args.length).mapError
      EvalError.arityMismatch with
    | ok => exact .inr fun _ => rfl
    | error e => exact .inl ⟨e, fun _ => rfl⟩
  · exact .inr fun _ => rfl

/-- Only a break of the closure itself is orphaned. -/
theorem Outcome.orphaned_break (target : Target) (outcome : Outcome) :
    outcome.orphaned target = outcome ∨ ∃ value, outcome = .error (.stop (some target) value) ∧
      outcome.orphaned target = .error (.error (.breakFromClosure value)) := by
  unfold Outcome.orphaned
  split
  · next aim value =>
    split
    · next same => exact .inr ⟨value, same ▸ rfl, rfl⟩
    · exact .inl rfl
  · exact .inl rfl

/-- Settling changes only how a break of the closure itself ends, and only if nothing waits for it. -/
theorem Eval.settling_cases (called : Closure) (yielded : Eval Value) (s : State) :
    settling called yielded s = yielded s ∨ ∃ value s',
      yielded s = .error (.signal (.stop (some called.target) value)) s' ∧
      (called.kind = .proc ∨ called.target ∉ s'.context.liveLiterals) ∧
      settling called yielded s = .error (.signal (.error (.breakFromClosure value))) s' := by
  have settle (outcome : Outcome) (t : State) (ended : observe yielded s = .ok outcome t) :
      settling called yielded s = ofOutcome
        (if called.kind = .proc ∨ ¬t.context.liveLiterals.contains called.target then
          outcome.orphaned called.target else outcome) t := bind_ok ended
  cases result : yielded s with
  | ok value t =>
    refine .inl ((settle (.ok value) t (by simp only [observe, result])).trans ?_)
    rw [show Outcome.orphaned called.target (.ok value) = .ok value from rfl, ite_self]
    rfl
  | error halt t =>
    cases halt with
    | signal g =>
      have ends := settle (.error g) t (observe_signal result)
      by_cases orphan : called.kind = .proc ∨ ¬t.context.liveLiterals.contains called.target
      · rw [if_pos orphan] at ends
        rcases Outcome.orphaned_break called.target (.error g) with same | ⟨value, broke, error⟩
        · exact .inl (ends.trans (by rw [same]; rfl))
        · cases broke
          refine .inr ⟨value, t, rfl, ?_, ends.trans (by rw [error]; rfl)⟩
          simpa using orphan
      · rw [if_neg orphan] at ends
        exact .inl ends
    | fault | exhausted =>
      refine .inl (bind_error ?_)
      simp only [observe, result]

/-- Settling makes errors only. -/
theorem Eval.settling_signal {called : Closure} {yielded : Eval Value} {s s' : State} {g : Signal}
    (ends : settling called yielded s = .error (.signal g) s') :
    (∃ e, g = .error e) ∨ yielded s = .error (.signal g) s' := by
  rcases settling_cases called yielded s with same | ⟨value, t, -, -, orphaned⟩
  · exact .inr (same.symm.trans ends)
  · cases orphaned.symm.trans ends
    exact .inl ⟨_, rfl⟩

/-- Calls and yields contain next, redo and unclaimed breaks. Methods with a body of their own also
contain retry and the returns aimed at them, and lambdas the returns aimed at them. -/
theorem signals_contained (fuel : Nat) :
    (∀ method call, Emits Signal.CrossesCalls (Engine.invoke fuel method call)) ∧
    (∀ method call s g s', (s.shared.library.method method).HasBody →
      Engine.invoke fuel method call s = .error (.signal g) s' →
      g ≠ .retry ∧ g.Misses (s.shared.library.method method).target) ∧
    (∀ closure delivery, Emits Signal.CrossesCalls (Engine.yield fuel closure delivery)) ∧
    (∀ closure args, Emits Signal.CrossesCalls (Engine.callClosure fuel closure args)) ∧
    ∀ closure s literal, (s.shared.closure closure).kind = .lambda →
      (s.shared.closure closure).body = .literal literal →
      (∀ delivery g s', Engine.yield fuel closure delivery s = .error (.signal g) s' →
        g.Misses (s.shared.closure closure).target) ∧
      ∀ args g s', Engine.callClosure fuel closure args s = .error (.signal g) s' →
        g.Misses (s.shared.closure closure).target := by
  have errors (e : EvalError) : (Signal.error e).CrossesCalls := trivial
  refine ⟨fun _ _ => answer_crosses fuel _, ?_, fun _ _ => answer_crosses fuel _, ?_, ?_⟩
  · intro method call s g s' hasBody ends
    cases fuel with
    | zero => cases ends
    | succ fuel =>
      have leaves := invoke_leaves hasBody ends
      refine ⟨?_, leaves.misses⟩
      rintro rfl
      cases leaves.foreign
  · exact fun closure args => (Emits.control errors).callClosure (answer_crosses fuel) closure args
  · intro closure s literal kind own
    have yields (delivery : Delivery) (g : Signal) (s' : State)
        (ends : Engine.yield fuel closure delivery s = .error (.signal g) s') :
        g.Misses (s.shared.closure closure).target := by
      cases fuel with
      | zero => cases ends
      | succ fuel => exact (yieldTo_leaves own ends).misses kind
    refine ⟨yields, fun args g s' ends => ?_⟩
    rcases callClosure_cases closure args s with ⟨e, refused⟩ | same
    · cases (refused _).symm.trans ends
      exact nofun
    · rcases settling_signal ((same _).symm.trans ends) with ⟨e, rfl⟩ | yielded
      · exact nofun
      · exact yields _ g s' yielded

/-- A method turns the retry of its body into an error, and a lambda lets it through. -/
theorem signals_contained_retry :
    let retrying : Method :=
      ⟨Core.object, .pub, .frameAndScope, ⟨1⟩, .interpreted ⟨0, {}, .retry⟩ {}⟩
    let lambda : Closure :=
      { body := .literal ⟨0, {}, .retry⟩, binding := default, target := ⟨2⟩, kind := .lambda }
    let s : State :=
      ⟨{ library.methods := #[retrying], closures := #[lambda] },
        { id := 0, main := ⟨0, 0⟩, scopes := [[]], stack := .ofRoot { self := .nil } none }⟩
    ∃ e s₁ s₂, Engine.invoke 2 0 ⟨.nil, "again", [], none⟩ s = .error (.signal (.error e)) s₁ ∧
      (Signal.error e).Misses ⟨1⟩ ∧
      Engine.callClosure 2 0 [] s = .error (.signal .retry) s₂ ∧ Signal.retry.Misses ⟨2⟩ := by
  intro retrying lambda s
  have contained := signals_contained 2
  refine ⟨_, _, _, rfl, ?_, rfl, ?_⟩
  · exact (contained.2.1 0 ⟨.nil, "again", [], none⟩ s _ _ nofun rfl).2
  · exact (contained.2.2.2.2 0 s _ rfl rfl).2 [] .retry _ rfl

end CallEngine
