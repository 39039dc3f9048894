import CallEngine.Proofs.Unwinding
/-! A claimed break goes to the call of its literal and ends it. Nothing on the way makes anything else
of it, as long as the call is still running. -/
namespace CallEngine
open Eval

/-- The literal of a call is awaited from the moment it is live. -/
theorem State.Orderly.awaits {s s₁ : State} {literal : Literal StaticId Node} {id : ClosureId}
    (orderly : s.Orderly) (made : makeClosure (.literal literal) .normal s = .ok id s₁) :
    (s₁.enterLive (s₁.shared.closure id).target).Awaits (s₁.shared.closure id).target := by
  obtain ⟨frame, env, -, own, rfl⟩ := makeClosure_ok made
  have identity : (s.shared.made (.literal literal) (frame.capture env) .normal).target =
    ⟨s.shared.nextTarget⟩ := rfl
  rw [own, identity]
  refine ⟨Nat.lt_succ_self s.shared.nextTarget, fun other same => ?_, List.mem_cons_self ..⟩
  change ((s.shared.addClosure _ _ _).2.closure other).target = _ at same
  change ((s.shared.addClosure _ _ _).2.closure other).kind = _
  rw [s.shared.closure_added] at same ⊢
  split at same
  · next new => rw [if_pos new]; rfl
  · have old := orderly.shared.closures other
    rw [same] at old
    exact absurd old (Nat.lt_irrefl _)

theorem Eval.callWithLiteral_eq {s s₁ : State} {literal : Literal StaticId Node} {id : ClosureId}
    (made : makeClosure (.literal literal) .normal s = .ok id s₁) (call : ClosureId → Eval Value) :
    callWithLiteral literal call s =
      match call id (s₁.enterLive (s₁.shared.closure id).target) with
      | .ok value t => .ok value (t.leaveLive (s₁.shared.closure id).target)
      | .error (.signal g) t =>
        ending (Outcome.atLiteral (s₁.shared.closure id).target (.error g))
          (t.leaveLive (s₁.shared.closure id).target)
      | .error halt t => .error halt t := by
  have step : callWithLiteral literal call s =
      (whileLive (s₁.shared.closure id).target (call id) >>= fun outcome =>
        ofOutcome (outcome.atLiteral (s₁.shared.closure id).target)) s₁ := bind_ok made
  rw [step]
  simp only [Bind.bind, EStateM.bind, whileLive_eq]
  cases call id (s₁.enterLive (s₁.shared.closure id).target) with
  | ok value t => rfl
  | error halt t =>
    cases halt with
    | signal g =>
      dsimp only
      cases Outcome.atLiteral (s₁.shared.closure id).target (.error g) <;> rfl
    | fault | exhausted => rfl

/-- What a call with a literal asks for, its callee asks for. -/
theorem Asks.callee {s t : State} {request : Request} {literal : Literal StaticId Node}
    {call : Responder → ClosureId → Eval Value} {ask : Responder}
    (asked : Asks (fun ask => callWithLiteral literal (call ask)) ask s request t) :
    ∃ id s₁, makeClosure (.literal literal) .normal s = .ok id s₁ ∧
      Asks (fun ask => call ask id) ask (s₁.enterLive (s₁.shared.closure id).target) request t := by
  cases made : makeClosure (.literal literal) .normal s with
  | error halt s₁ =>
    obtain ⟨fault, differ⟩ := asked.differs
    exact absurd ((bind_error made).trans (bind_error made).symm) differ
  | ok id s₁ =>
    refine ⟨id, s₁, rfl, fun fault => ?_⟩
    obtain ⟨u, cut⟩ := asked fault
    have cut := (callWithLiteral_eq made _).symm.trans cut
    dsimp only at cut ⊢
    split at cut
    · cases cut
    · next g t result =>
      cases ends : Outcome.atLiteral (s₁.shared.closure id).target (.error g) <;>
        rw [ends] at cut <;> cases cut
    · next halt t notSignal result =>
      cases cut
      exact ⟨u, result⟩

theorem Eval.callMethod_forwards (receiver : Value) (name : String) (args : List Value)
    (block : Option ClosureId) (type : CallType) :
    Forwards fun ask => callMethod ask receiver name args block type :=
  fun opened _ _ asks => Passage.Tracks.callMethod opened asks receiver name args block type

/-- The call of a literal ends with the value of the literal's break. -/
theorem During.endsCall {s t u : State} {receiver : Value} {name : String} {args : List Value}
    {literal : Literal StaticId Node} {type : CallType} {fuel last : Nat} {final : Request}
    {value : Value} (orderly : s.Orderly)
    (during : During (fun ask => Eval.dispatch ask receiver name args (.literal literal) type)
      fuel s last final t)
    (answered : answer last final t =
      .error (.signal (.stop (some ⟨s.shared.nextTarget⟩) value)) u) :
    ∃ s', Unwound u s' ∧
      Engine.dispatch fuel receiver name args (.literal literal) type s = .ok value s' := by
  obtain ⟨request, t, asked, path⟩ := during
  obtain ⟨id, s₁, made, asked⟩ := asked.callee
  have identity : (s₁.shared.closure id).target = ⟨s.shared.nextTarget⟩ := by
    obtain ⟨frame, env, -, own, -⟩ := makeClosure_ok made
    rw [own]
    rfl
  rw [← identity] at answered
  obtain ⟨u', unwound, ends⟩ := During.stops (callMethod_forwards receiver name args (some id) type)
    ⟨request, t, asked, path⟩ (orderly.awaits made) answered
  refine ⟨u'.leaveLive (s₁.shared.closure id).target, unwound.leaveLive _, ?_⟩
  have result : Engine.dispatch fuel receiver name args (.literal literal) type s = _ :=
    callWithLiteral_eq made _
  rw [result]
  dsimp only
  rw [ends]
  simp [Outcome.atLiteral, ending]

/-- A break that a literal has claimed ends the call of the literal. It undoes what the call has set
up and does nothing else; on the way everything that evaluates passes it on. -/
theorem claimed_break_ends_its_call (fuel : Nat) :
    (∀ s receiver name args literal type id s₁ last final t value u, s.Orderly →
      makeClosure (.literal literal) .normal s = .ok id s₁ →
      During (fun ask => Eval.dispatch ask receiver name args (.literal literal) type)
        fuel s last final t →
      answer last final t =
        .error (.signal (.stop (some (s₁.shared.closure id).target) value)) u →
      ∃ s', Engine.dispatch fuel receiver name args (.literal literal) type s = .ok value s' ∧
        Unwound u s' ∧ (s₁.shared.closure id).target ∉ s'.context.liveLiterals) ∧
    (∀ s target last final t value u, s.Awaits target →
      answer last final t = .error (.signal (.stop (some target) value)) u →
      let Passes (x : Responder → Eval Value) : Prop := During x fuel s last final t →
        ∃ u', Unwound u u' ∧ x (answer fuel) s = .error (.signal (.stop (some target) value)) u'
      (∀ node : Node, Passes fun ask => node.eval fuel ask) ∧
      (∀ code : Code, Passes fun ask => code.exec fuel ask) ∧
      (∀ receiver name args block type,
        Passes fun ask => Eval.dispatch ask receiver name args block type) ∧
      (∀ id args, Passes fun ask => Eval.callClosure ask id args) ∧
      (∀ (builtin : Builtin) call, Passes fun ask => builtin.run fuel ask call) ∧
      ∀ request, Leads (fun _ _ => True) fuel request s last final t →
        ∃ u', Unwound u u' ∧
          answer fuel request s = .error (.signal (.stop (some target) value)) u') ∧
    (∀ config backend tellsCompiles hooks contexts firstTarget steps id,
      let later :=
        (Session.start config backend tellsCompiles hooks contexts firstTarget).after fuel steps
      State.Orderly ⟨later.shared, later.contexts.getD id default⟩) ∧
    ∀ (node : Node) s, s.Orderly → (finalState (Engine.evalNode fuel node s)).Orderly ∧
      ∀ last final t, During (fun ask => node.eval fuel ask) fuel s last final t → t.Orderly := by
  open Passage.Tracks in
  refine ⟨?_, ?_, ?_, ?_⟩
  · intro s receiver name args literal type id s₁ last final t value u orderly made during answered
    obtain ⟨frame, env, -, own, -⟩ := makeClosure_ok made
    have identity : (s₁.shared.closure id).target = ⟨s.shared.nextTarget⟩ := own ▸ rfl
    rw [identity] at answered ⊢
    obtain ⟨s', unwound, ends⟩ := during.endsCall orderly answered
    refine ⟨s', ends, unwound, fun live => ?_⟩
    have steady := Steady.compositional.dispatch fuel receiver name args (.literal literal) type
    rw [(steady.resumes (e := .ok value) ends).live] at live
    exact absurd (orderly.live _ live) (Nat.lt_irrefl _)
  · intro s target last final t value u awaits answered Passes
    have passes {x : Responder → Eval Value} (forwards : Forwards x) : Passes x :=
      fun during => during.stops forwards awaits answered
    exact ⟨fun node => passes fun opened _ _ asks => eval opened asks fuel node,
      fun code => passes fun opened _ _ asks => exec opened asks fuel code,
      fun receiver name args block type => passes fun opened _ _ asks =>
        dispatch opened asks receiver name args block type,
      fun id args => passes fun opened _ _ asks => callClosure opened asks id args,
      fun builtin' call => passes fun opened _ _ asks => builtin opened asks fuel builtin' call,
      fun request path => path.stops awaits answered⟩
  · intro config backend tellsCompiles hooks contexts firstTarget steps id
    exact (Session.after_orderly fuel steps (Session.start_orderly ..)).state id
  · intro node s orderly
    refine ⟨(Advancing.sessional.evalNode fuel node s).orderly orderly, ?_⟩
    rintro last final t ⟨request, t', asked, path⟩
    have forwards : Forwards fun ask => node.eval fuel ask :=
      fun opened _ _ asks => eval opened asks fuel node
    exact path.orderly (asked.orderly forwards.transparent orderly)

/-- `loop { break 5 }` ends with 5. -/
theorem claimed_break_ends_its_call_loop :
    let looping : Method := ⟨Core.object, .priv, .frameOnly, ⟨1⟩, .builtin .loop⟩
    let s : State :=
      ⟨{ library.classes := #[{ name := "Object", methods := Table.insert {} "loop" 0 }]
         library.methods := #[looping], nextTarget := 2 },
        { id := 0, main := ⟨0, 0⟩, scopes := [[]], stack := .ofRoot { self := .nil } none }⟩
    let literal : Literal StaticId Node := ⟨0, {}, .doBreak (some (.int 5))⟩
    ∃ t u s', answer 2 (.yield 0 { value := .nil }) t =
        .error (.signal (.stop (some ⟨2⟩) (.int 5))) u ∧
      Engine.dispatch 3 (.object ⟨0, 0⟩) "loop" [] (.literal literal) .functional s =
        .ok (.int 5) s' ∧
      Unwound u s' ∧ (⟨2⟩ : Target) ∉ s'.context.liveLiterals := by
  intro looping s literal
  have noBody : (id : MethodId) → ¬(s.shared.library.method id).HasBody
    | 0, hasBody => hasBody .loop rfl
    | _ + 1, hasBody => hasBody default rfl
  have orderly : s.Orderly := ⟨.of_builtin (fun _ => Nat.zero_lt_two) noBody, fun _ => nofun⟩
  let s₁ := finalState (makeClosure (.literal literal) .normal s)
  let s₂ := finalState (setLastCall .functional (s₁.enterLive ⟨2⟩))
  let frame : Frame :=
    { self := .object ⟨0, 0⟩, cls := some Core.object, name := some "loop", block := some 0 }
  let s₃ := s₂.pushed (s₂.context.stack.add frame)
  have during : During (fun ask =>
      Eval.dispatch ask (.object ⟨0, 0⟩) "loop" [] (.literal literal) .functional)
      3 s 2 (.yield 0 { value := .nil }) s₃ := by
    refine ⟨.invoke 0 ⟨.object ⟨0, 0⟩, "loop", [], some 0⟩, s₂, ?_, .step trivial ?_ (.refl _ _ _)⟩
    · exact .of_run (fun _ result => (whileLive ⟨2⟩ (fun _ => result) >>= fun outcome =>
        ofOutcome (outcome.atLiteral ⟨2⟩)) s₁) (fun _ => rfl) fun _ _ => ⟨_, rfl⟩
    · exact .of_run (fun ask result => Eval.ensuring
        ((fun _ => result) >>= fun _ => yieldForever ask 0 1) State.popFrame s₃)
        (fun _ => rfl) fun _ _ => ⟨_, rfl⟩
  have ends := (claimed_break_ends_its_call 3).1 s (.object ⟨0, 0⟩) "loop" [] literal .functional 0
    s₁ 2 _ s₃ (.int 5) _ orderly rfl during rfl
  exact ⟨s₃, _, ends.choose, rfl, ends.choose_spec⟩

end CallEngine
