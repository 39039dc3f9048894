import CallEngine.Proofs.Returns
import CallEngine.Proofs.Unwinding
/-! Where a return in a closure goes. It is aimed at the method that the closure was made in, not at
one of its activations, so the innermost one that runs is the one it ends. -/
namespace CallEngine
open Eval

/-- The frames of activations of a method, and of the closures made under them. A lambda starts
anew. -/
inductive Frame.Within (target : Target) : Frame → Prop where
  | activation {m : Method} {call : Call} {frame : Frame} :
    frame ∈ m.config.frames (m.invocation call) → frame.activation = some target →
      Within target frame
  | visibility {frame : Frame} (visibility : Visibility) : Within target frame →
    Within target { frame with visibility }
  | closure {frame : Frame} {body : ClosureBody} {kind : ClosureKind} {s t : State}
    {id : ClosureId} (delivery : Delivery) : Within target frame →
      s.context.stack.current = .ok frame → makeClosure body kind s = .ok id t → kind ≠ .lambda →
        Within target ((t.shared.closure id).frame delivery)

theorem CallConfig.jumpTarget_of_mem {config : CallConfig} {call : Invocation} {frame : Frame}
    (member : frame ∈ config.frames call) {target : Target}
    (own : frame.activation = some target) : frame.jumpTarget = some target := by
  unfold CallConfig.frames at member
  dsimp only at member
  split at member
  · cases member
  · simp only [List.mem_cons, List.not_mem_nil, or_false] at member
    rcases member with rfl | rfl
    · cases own
    · exact own
  · simp only [List.mem_singleton] at member
    subst member
    exact own

theorem Frame.Within.jumpTarget {target : Target} {frame : Frame} (within : frame.Within target) :
    frame.jumpTarget = some target := by
  induction within with
  | activation member own => exact CallConfig.jumpTarget_of_mem member own
  | visibility _ _ ih => exact ih
  | closure delivery _ current made notLambda ih =>
    obtain ⟨found, env, current', own, -⟩ := makeClosure_ok made
    cases current.symm.trans current'
    simpa [Closure.frame, own, Shared.made, notLambda, Frame.capture, Frame.duplicate] using ih

/-- A return is let go if the method runs at all, whichever of its activations made the closure. -/
theorem Eval.returnValue_within {s : State} {frame : Frame} {target : Target}
    (current : s.context.stack.current = .ok frame) (within : frame.Within target) (value : Value) :
    returnValue value s =
      if s.context.stack.isActive target then .error (.signal (.leave target value)) s
      else .error (.signal (.error (.unexpectedReturn value))) s := by
  rw [returnValue_eq current, within.jumpTarget]
  dsimp only
  split <;> rfl

/-- Within one body, evaluating one thing comes to evaluating another. -/
inductive Reaches {β : Type} (y : Eval β) (t : State) : {α : Type} → Eval α → State → Prop where
  | here : Reaches y t y t
  | first {α γ : Type} {x : Eval α} {f : α → Eval γ} {s : State} : Reaches y t x s →
    Reaches y t (x >>= f) s
  | rest {α γ : Type} {x : Eval α} {f : α → Eval γ} {a : α} {s s₁ : State} : x s = .ok a s₁ →
    Reaches y t (f a) s₁ → Reaches y t (x >>= f) s
  | withFrame {α : Type} {x : Eval α} {frame : Frame} {stack : FrameStack} {s : State} :
    s.context.stack.push frame = .ok stack → Reaches y t x (s.pushed stack) →
      Reaches y t (Eval.withFrame frame x) s
  | withScope {α : Type} {x : Eval α} {env : Env} {s : State} :
    Reaches y t x { s with context.scopes := env :: s.context.scopes } →
      Reaches y t (Eval.withScope env x) s
  /-- The body of a loop or of a closure. -/
  | repeated {γ : Type} {body : Eval Value} {k : Outcome → Eval γ} {bound : Nat} {s : State} :
    (∀ target value, k (.error (.leave target value)) = Eval.signal (.leave target value)) →
      Reaches y t body s → Reaches y t (redoing body (bound + 1) >>= k) s
  | redo {γ : Type} {body : Eval Value} {k : Outcome → Eval γ} {bound : Nat} {s s₁ s₂ : State} :
    body s = .error (.signal .redo) s₁ → poll s₁ = .ok () s₂ →
      Reaches y t (redoing body bound >>= k) s₂ → Reaches y t (redoing body (bound + 1) >>= k) s
  | rescued {body handler : Eval Value} {bound : Nat} {s : State} : Reaches y t body s →
    Reaches y t (rescuing body handler (bound + 1)) s
  | handler {body handler : Eval Value} {bound : Nat} {e : EvalError} {s s₁ s₂ : State} :
    body s = .error (.signal (.error e)) s₁ → e.kind.isRescuable →
      setGlobal "$!" (.str e.message) s₁ = .ok () s₂ → Reaches y t handler s₂ →
        Reaches y t (rescuing body handler (bound + 1)) s
  | retry {body handler : Eval Value} {bound : Nat} {e : EvalError} {s s₁ s₂ s₃ s₄ : State} :
    body s = .error (.signal (.error e)) s₁ → e.kind.isRescuable →
      setGlobal "$!" (.str e.message) s₁ = .ok () s₂ → handler s₂ = .error (.signal .retry) s₃ →
        poll s₃ = .ok () s₄ → Reaches y t (rescuing body handler bound) s₄ →
          Reaches y t (rescuing body handler (bound + 1)) s

/-- No construct of a body catches a return. -/
theorem Reaches.leaves {β : Type} {y : Eval β} {t : State} {target : Target} {value : Value}
    (raises : y t = .error (.signal (.leave target value)) t) {α : Type} {x : Eval α} {s : State}
    (reaches : Reaches y t x s) :
    ∃ u, Unwound t u ∧ x s = .error (.signal (.leave target value)) u := by
  induction reaches with
  | here => exact ⟨t, .refl, raises⟩
  | first _ ih =>
    obtain ⟨u, unwound, ends⟩ := ih
    exact ⟨u, unwound, bind_error ends⟩
  | rest ends _ ih =>
    rw [bind_ok ends]
    exact ih
  | withFrame fits _ ih =>
    obtain ⟨u, unwound, ends⟩ := ih
    refine ⟨u.popFrame, unwound.popFrame, ?_⟩
    rw [withFrame_eq, fits]
    simp only [ensuring, ends]
  | @withScope _ _ env _ _ ih =>
    obtain ⟨u, unwound, ends⟩ := ih
    refine ⟨u.popScope, unwound.popScope, ?_⟩
    change ensuring _ State.popScope _ = _
    simp only [ensuring, ends]
  | @repeated _ body _ bound _ passes _ ih =>
    obtain ⟨u, unwound, ends⟩ := ih
    have once : redoing body (bound + 1) _ = .ok (.error (.leave target value)) u :=
      bind_ok (observe_signal ends)
    refine ⟨u, unwound, ?_⟩
    rw [bind_ok once, passes]
    rfl
  | @redo _ body _ bound s s₁ s₂ again polled _ ih =>
    have once : redoing body (bound + 1) s = redoing body bound s₂ :=
      (bind_ok (observe_signal again)).trans (bind_ok polled)
    simp only [Bind.bind, EStateM.bind, once]
    exact ih
  | rescued _ ih =>
    obtain ⟨u, unwound, ends⟩ := ih
    exact ⟨u, unwound, bind_ok (observe_signal ends)⟩
  | @handler body handler bound e s s₁ s₂ fails rescuable set _ ih =>
    obtain ⟨u, unwound, ends⟩ := ih
    refine ⟨u, unwound, (bind_ok (observe_signal fails)).trans ?_⟩
    simp only [rescuable, if_true]
    exact (bind_ok set).trans (bind_ok (observe_signal ends))
  | @retry body handler bound e s s₁ s₂ s₃ s₄ fails rescuable set again polled _ ih =>
    obtain ⟨u, unwound, ends⟩ := ih
    refine ⟨u, unwound, (bind_ok (observe_signal fails)).trans ?_⟩
    simp only [rescuable, if_true]
    exact (bind_ok set).trans ((bind_ok (observe_signal again)).trans ((bind_ok polled).trans ends))

/-- The request runs a method or a lambda that catches returns aimed at `target`. -/
def Request.Activates (target : Target) (s : State) : Request → Prop
  | .invoke id _ =>
    (s.shared.library.method id).HasBody ∧ (s.shared.library.method id).target = target
  | .yield id _ =>
    ∃ literal binding, s.shared.closure id = ⟨.literal literal, binding, target, .lambda⟩

theorem Request.Activates.resumes {target : Target} {request : Request} {s t : State}
    (activates : request.Activates target s) (resumes : s.Resumes t) :
    request.Activates target t := by
  cases request with
  | invoke id call =>
    obtain ⟨hasBody, own⟩ := activates
    obtain ⟨hasBody', same⟩ := resumes.shared.methods id hasBody
    exact ⟨hasBody', same.trans own⟩
  | yield id delivery =>
    obtain ⟨literal, binding, own⟩ := activates
    have same := resumes.shared.lambdas id (congrArg Closure.kind own)
    exact ⟨literal, binding, same.trans own⟩

/-- An identity belongs to one method only, and to no lambda besides. -/
theorem Request.Activates.isInvoke {s : State} (orderly : s.Orderly) {id : MethodId}
    (hasBody : (s.shared.library.method id).HasBody) {request : Request}
    (activates : request.Activates (s.shared.library.method id).target s) :
    ∃ call, request = .invoke id call := by
  cases request with
  | invoke other call =>
    cases orderly.shared.oneMethod other id activates.1 hasBody activates.2
    exact ⟨call, rfl⟩
  | yield closure delivery =>
    obtain ⟨literal, binding, own⟩ := activates
    have differ := orderly.shared.noLambda id closure hasBody (congrArg Closure.kind own)
    exact absurd (congrArg Closure.target own) differ

theorem Request.boundary_leave (request : Request) (s : State) (target : Target) (value : Value) :
    request.Activates target s ∧ request.boundary s (.error (.leave target value)) = .ok value ∨
    ¬request.Activates target s ∧
      request.boundary s (.error (.leave target value)) = .error (.leave target value) := by
  cases request with
  | invoke id call =>
    change (_ ∧ _) ∧ Method.boundary _ _ = _ ∨ ¬(_ ∧ _) ∧ Method.boundary _ _ = _
    by_cases hasBody : (s.shared.library.method id).HasBody
    · rw [hasBody.boundary]
      by_cases own : target = (s.shared.library.method id).target
      · exact .inl ⟨⟨hasBody, own.symm⟩, if_pos own⟩
      · exact .inr ⟨fun activates => own activates.2.symm, if_neg own⟩
    · refine .inr ⟨fun activates => hasBody activates.1, ?_⟩
      unfold Method.boundary
      split
      · rfl
      · next others => exact absurd others hasBody
  | yield id delivery =>
    change (∃ _ _, _) ∧ Closure.boundary _ _ = _ ∨ (¬∃ _ _, _) ∧ Closure.boundary _ _ = _
    obtain ⟨body, binding, own, kind⟩ := s.shared.closure id
    cases body with
    | literal literal =>
      change _ ∧ (if _ then _ else _) = _ ∨ _ ∧ (if _ then _ else _) = _
      by_cases catches : kind = .lambda ∧ target = own
      · obtain ⟨rfl, rfl⟩ := catches
        exact .inl ⟨⟨literal, binding, rfl⟩, if_pos ⟨rfl, rfl⟩⟩
      · refine .inr ⟨?_, if_neg catches⟩
        rintro ⟨literal', binding', ⟨⟩⟩
        exact catches ⟨rfl, rfl⟩
    | method method name =>
      refine .inr ⟨?_, rfl⟩
      rintro ⟨literal, binding', ⟨⟩⟩

/-- A return ends the requests that led to it, up to the innermost one that catches it. -/
theorem Leads.leaves {fuel last : Nat} {request final : Request} {s t u : State}
    (path : Leads (fun _ _ => True) fuel request s last final t) {target : Target} {value : Value}
    (answered : answer last final t = .error (.signal (.leave target value)) u) :
    (Leads (fun other s => ¬other.Activates target s) fuel request s last final t ∧
      ∃ u', Unwound u u' ∧ answer fuel request s = .error (.signal (.leave target value)) u') ∨
    ∃ n catcher t₁ inner t₂ u', Leads (fun _ _ => True) fuel request s (n + 1) catcher t₁ ∧
      catcher.Activates target t₁ ∧
      Asks (fun ask => respond n ask catcher) (answer n) t₁ inner t₂ ∧
      Leads (fun other s => ¬other.Activates target s) n inner t₂ last final t ∧
      Unwound u u' ∧ answer (n + 1) catcher t₁ = .ok value u' := by
  induction path with
  | refl fuel request s => exact .inl ⟨.refl fuel request s, u, .refl, answered⟩
  | @step fuel last request inner final s t _ _ asked path ih =>
    rcases ih answered with ⟨clear, u₁, unwound, ends⟩ | ⟨n, catcher, t₁, rest, t₂, u', path', found⟩
    · obtain ⟨u₂, unwound', result⟩ := asked.atBoundary ends trivial
      rcases request.boundary_leave s target value with ⟨catches, caught⟩ | ⟨passes, passed⟩
      · rw [caught] at result
        exact .inr ⟨fuel, request, s, inner, t, u₂, .refl .., catches, asked, clear,
          unwound.trans unwound', result⟩
      · rw [passed] at result
        exact .inl ⟨.step passes asked clear, u₂, unwound.trans unwound', result⟩
    · exact .inr ⟨n, catcher, t₁, rest, t₂, u', .step trivial asked path', found⟩

/-- In the course of `x`, a return in a closure ends the innermost running activation of the method
that the closure was made in. It is the last of them that led to the yield, its call ends with the
value, and nothing but unwinding is done in between. -/
def EndsInnermost {α : Type} (x : Responder → Eval α) (fuel : Nat) (s : State) : Prop :=
  ∀ last closure delivery t value w frame method,
    During x fuel s (last + 1) (.yield closure delivery) t →
    Reaches (returnValue value) w (yieldTo last (answer last) closure delivery) t →
    (t.shared.library.method method).HasBody →
    w.context.stack.current = .ok frame →
    frame.Within (t.shared.library.method method).target →
    w.context.stack.isActive (t.shared.library.method method).target →
    ¬s.context.stack.isActive (t.shared.library.method method).target →
    ∃ n call t₁ inner t₂ u,
      During x fuel s (n + 1) (.invoke method call) t₁ ∧
      Asks (fun ask => respond n ask (.invoke method call)) (answer n) t₁ inner t₂ ∧
      Leads (fun request _ => ∀ call, request ≠ .invoke method call) n inner t₂
        (last + 1) (.yield closure delivery) t ∧
      Engine.invoke (n + 1) method call t₁ = .ok value u ∧ Unwound w u

theorem EndsInnermost.of_forwards {α : Type} {x : Responder → Eval α} {fuel : Nat} {s : State}
    (forwards : Forwards x) (unwinds : Unwinds (x (answer fuel))) (orderly : s.Orderly) :
    EndsInnermost x fuel s := by
  intro last closure delivery t value w frame method during reaches hasBody current within active
    idle
  have raises := returnValue_within current within value
  rw [if_pos active] at raises
  obtain ⟨u, unwound, answered⟩ := reaches.leaves raises
  obtain ⟨request, t₀, asked, path⟩ := during
  rcases path.leaves answered with ⟨-, u₁, -, ends⟩ | ⟨n, catcher, t₁, inner, t₂, u₁, found⟩
  · -- Nothing on the way catches the return, so it comes out.
    obtain ⟨u₂, -, result⟩ := asked.forwarded forwards ends trivial
    exact absurd (unwinds.wasActive result) idle
  · obtain ⟨path₁, activates, asked₁, clear, unwound₁, ends⟩ := found
    have orderly' := path.orderly (asked.orderly forwards.transparent orderly)
    have known := asked₁.reaches (respond_transparent n catcher) Request.Activates.resumes
      (fun _ => id) activates
    have known' := clear.reaches Request.Activates.resumes (fun _ => id) known
    obtain ⟨call, rfl⟩ := known'.isInvoke orderly' hasBody
    have others : Leads (fun request _ => ∀ call, request ≠ .invoke method call) n inner t₂
        (last + 1) (.yield closure delivery) t := by
      refine clear.mono Request.Activates.resumes (fun _ => id) known ?_
      rintro other s' activates' never call rfl
      exact never activates'
    exact ⟨n, call, t₁, inner, t₂, u₁, ⟨request, t₀, asked, path₁⟩, asked₁, others, ends,
      unwound.trans unwound₁⟩

/-- A return in a closure ends the innermost running activation of the method that the closure was
made in. If none is running it fails on the spot. -/
theorem return_ends_innermost_activation (fuel : Nat) :
    (∀ s frame target value, s.context.stack.current = .ok frame → frame.Within target →
      returnValue value s =
        if s.context.stack.isActive target then .error (.signal (.leave target value)) s
        else .error (.signal (.error (.unexpectedReturn value))) s) ∧
    (∀ (node : Node) s, s.Orderly → EndsInnermost (fun ask => node.eval fuel ask) fuel s) ∧
    ∀ config backend tellsCompiles hooks contexts firstTarget steps id scope (node : Node),
      let later :=
        (Session.start config backend tellsCompiles hooks contexts firstTarget).after fuel steps
      let s : State := ⟨later.shared, later.contexts.getD id default⟩
      s.context.Idle ∧
        EndsInnermost (fun ask => Engine.toplevelOf scope (node.eval fuel ask)) fuel s := by
  have evaluates (node : Node) : Forwards fun ask => node.eval fuel ask :=
    fun opened _ _ asks => Passage.Tracks.eval opened asks fuel node
  have h := Unwinds.compositional
  refine ⟨fun s frame target value current within => returnValue_within current within value,
    fun node s => .of_forwards (evaluates node) (h.evalNode fuel node), ?_⟩
  intro config backend tellsCompiles hooks contexts firstTarget steps id scope node later s
  have idle := ((Session.start config backend tellsCompiles hooks contexts firstTarget).after_kept
    fuel steps).all Kept.idle (Session.addContexts_all (fun _ _ _ => rfl) _ contexts nofun)
  have orderly := Session.after_orderly fuel steps (Session.start_orderly config backend
    tellsCompiles hooks contexts firstTarget)
  have forwards : Forwards fun ask => Engine.toplevelOf scope (node.eval fuel ask) :=
    fun opened _ _ asks => Passage.Tracks.toplevelOf opened (evaluates node opened asks) scope
  have ends := EndsInnermost.of_forwards forwards (h.toplevel fuel scope node) (orderly.state id)
  exact ⟨Session.context_idle idle id, ends⟩

/-- `def find; loop { return 5 }; end` -/
theorem return_ends_innermost_activation_loop :
    let literal : Literal StaticId Node := ⟨0, {}, .doReturn (some (.int 5))⟩
    let body : Code := .send none "loop" [] (.literal literal)
    let finding : Method := ⟨Core.object, .pub, .frameAndScope, ⟨1⟩, .compiled 0 {} body⟩
    let looping : Method := ⟨Core.object, .priv, .frameOnly, ⟨2⟩, .builtin .loop⟩
    let s : State :=
      ⟨{ library.classes := #[
            { name := "Object", methods := (Table.insert {} "find" 0).insert "loop" 1 }],
         library.methods := #[finding, looping], nextTarget := 3 },
        { id := 0, main := ⟨0, 0⟩, scopes := [[]],
          stack := .ofRoot { self := .object ⟨0, 0⟩ } none }⟩
    ∃ n call t w u,
      During (fun ask => (Tree.bareCall "find" : Node).eval 5 ask) 5 s (n + 1) (.invoke 0 call) t ∧
      returnValue (.int 5) w = .error (.signal (.leave ⟨1⟩ (.int 5))) w ∧
      Engine.invoke (n + 1) 0 call t = .ok (.int 5) u ∧ Unwound w u := by
  intro literal body finding looping s
  let call : Call := ⟨.object ⟨0, 0⟩, "find", [], none⟩
  let inner : Call := ⟨.object ⟨0, 0⟩, "loop", [], some 0⟩
  let t₁ := finalState (setLastCall .bareName s)
  -- Inside the method, before and after the closure is made.
  let inside : Frame :=
    { self := .object ⟨0, 0⟩, cls := some Core.object, name := some "find",
      jumpTarget := some ⟨1⟩, activation := some ⟨1⟩ }
  let before := finalState (enterScope 0 [] (t₁.pushed (t₁.context.stack.add inside)))
  let before : State := { before with context.scopes := [0] :: before.context.scopes }
  let made := finalState (makeClosure (.literal literal) .normal before)
  let t₂ := finalState (setLastCall .functional (made.enterLive ⟨3⟩))
  let t := t₂.pushed (t₂.context.stack.add
    { self := .object ⟨0, 0⟩, cls := some Core.object, name := some "loop", block := some 0 })
  have first : Asks (fun ask => (Tree.bareCall "find" : Node).eval 5 ask) (answer 5) s
      (.invoke 0 call) t₁ :=
    .of_run (fun _ result => result) (fun _ => rfl) fun _ _ => ⟨_, rfl⟩
  have second : Asks (fun ask => respond 4 ask (.invoke 0 call)) (answer 4) t₁
      (.invoke 1 inner) t₂ :=
    .of_run (fun _ result => ensuring (ensuring (observe
      (whileLive ⟨3⟩ (fun _ => result) >>= fun outcome => ofOutcome (outcome.atLiteral ⟨3⟩)) >>=
        fun outcome => read (fun s => (outcome.atMethod ⟨1⟩).traced s.context.stack) >>= ofOutcome)
        State.popScope) State.popFrame made) (fun _ => rfl) fun _ _ => ⟨_, rfl⟩
  have third : Asks (fun ask => respond 3 ask (.invoke 1 inner)) (answer 3) t₂
      (.yield 0 { value := .nil }) t :=
    .of_run (fun ask result => ensuring ((fun _ => result) >>= fun _ => yieldForever ask 0 2)
      State.popFrame t) (fun _ => rfl) fun _ _ => ⟨_, rfl⟩
  let entered := finalState (enterScope 0 [0] t)
  let frame := (t.shared.closure 0).frame { value := .nil }
  let w := entered.pushed (entered.context.stack.add frame)
  let w : State := { w with context.scopes := [1, 0] :: w.context.scopes }
  have reaches : Reaches (returnValue (.int 5)) w
      (yieldTo 2 (answer 2) 0 { value := .nil }) t := by
    refine .rest rfl ?_
    change Reaches _ _ (yieldLiteral 2 (answer 2) (t.shared.closure 0) literal _) t
    refine .rest rfl (.withFrame rfl (.withScope (.rest rfl (.repeated (fun _ _ => rfl) ?_))))
    exact .rest rfl .here
  have within : frame.Within ⟨1⟩ := by
    have activation : inside.Within ⟨1⟩ :=
      @Frame.Within.activation _ finding call _ (List.mem_singleton.2 rfl) rfl
    exact .closure _ activation (s := before) (t := made) rfl rfl nofun
  have isFinding (id : MethodId) (hasBody : (s.shared.library.method id).HasBody) : id = 0 := by
    match id, hasBody with
    | 0, _ => rfl
    | 1, hasBody => exact absurd rfl (hasBody .loop)
    | _ + 2, hasBody => exact absurd rfl (hasBody default)
  have orderly : s.Orderly := by
    refine ⟨⟨fun _ => Nat.succ_pos 2, fun id hasBody => ?_, fun id other hasBody hasBody' _ => ?_,
      fun _ _ _ => nofun⟩, fun _ => nofun⟩
    · rw [isFinding id hasBody]
      exact Nat.lt_of_sub_eq_succ rfl
    · exact (isFinding id hasBody).trans (isFinding other hasBody').symm
  have during : During (fun ask => (Tree.bareCall "find" : Node).eval 5 ask) 5 s 3
      (.yield 0 { value := .nil }) t :=
    ⟨_, t₁, first, .step trivial second (.step trivial third (.refl _ _ _))⟩
  obtain ⟨returns, ends, -⟩ := return_ends_innermost_activation 5
  obtain ⟨n, call, t₁, -, -, u, invoked, -, -, result, unwound⟩ :=
    ends (.bareCall "find") s orderly 2 0 _ t (.int 5) w frame 0 during reaches nofun rfl within rfl
      nofun
  exact ⟨n, call, t₁, w, u, invoked, returns w frame ⟨1⟩ (.int 5) rfl within, result, unwound⟩

/-- The integer that an evaluation ends with. -/
def finalInt? : EStateM.Result Halt State Value → Option Int64
  | .ok (.int value) _ => some value
  | _ => none

theorem of_finalInt? {result : EStateM.Result Halt State Value} {value : Int64}
    (ends : finalInt? result = some value) : ∃ s, result = .ok (.int value) s := by
  unfold finalInt? at ends
  split at ends
  · next s =>
    cases ends
    exact ⟨s, rfl⟩
  · cases ends

/-- The activation that made the closure need not be the one that ends. In `nested` it has another one
above it, which ends with the 1 in its place, and it goes on to its own 2. In `finished` it is over, and
the return ends the next activation instead of failing. -/
theorem return_misses_outer_activation :
    let session := Session.start {} Backend.lowering true [] 1 1
    let s : State := ⟨session.shared, session.contexts.getD 0 default⟩
    let returning : Literal StaticId Node := ⟨0, {}, .doReturn (some (.int 1))⟩
    let nested : Node := .seq
      [.define "m" 0 {} (.cond (.globalGet "$inner") (.yield []) (some (.seq
        [.globalSet "$inner" (.bool true), .call none "m" [] (.literal returning), .int 2]))),
      .bareCall "m"]
    let finished : Node := .seq
      [.define "m" 0 {} (.cond (.globalGet "$made")
        (.seq [.call (some (.globalGet "$made")) "call" [] .absent, .int 2])
        (some (.globalSet "$made" (.makeProc returning)))),
      .bareCall "m", .rescue (.bareCall "m") (.int 3)]
    (∃ s', Engine.toplevel 9 0 nested s = .ok (.int 2) s') ∧
      ∃ s', Engine.toplevel 9 0 finished s = .ok (.int 1) s' := by
  intro session s returning nested finished
  exact ⟨of_finalInt? (by decide +kernel), of_finalInt? (by decide +kernel)⟩

end CallEngine
