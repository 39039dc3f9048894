import CallEngine.Proofs.Conveyance
/-! A request leads to others, and a signal that answers one of them unwinds what led to it: calls and
yields end with it one after the other, up to the one whose end makes something else of it. -/
namespace CallEngine
open Eval

/-- Returns go through everything that evaluates, breaks where they are awaited. -/
def Signal.MayPass : Signal → State → Prop
  | .leave .., _ => True
  | .stop (some target) _, s => s.Awaits target
  | _, _ => False

theorem Signal.MayPass.isOpen {g : Signal} {s : State} (passes : g.MayPass s) (fault : Fault)
    (u : State) : Passage.IsOpen ⟨g, fault, g.MayPass, Unwound u⟩ := by
  cases g with
  | leave target value =>
    exact ⟨fun _ _ => trivial, fun _ _ => trivial, .inl ⟨target, value, rfl⟩, .trans⟩
  | stop aim value =>
    cases aim with
    | none => exact passes.elim
    | some target =>
      refine ⟨State.Awaits.resumes, fun id awaits => ?_, ?_, .trans⟩
      · exact ⟨awaits.given, awaits.kind, List.mem_cons_of_mem _ awaits.live⟩
      · exact .inr ⟨target, value, rfl, fun _ awaits => awaits⟩
  | error | next | redo | retry => exact passes.elim

/-- What a responder is handed to. -/
def Transparent {α : Type} (x : Responder → Eval α) : Prop :=
  ∀ {p : Passage}, p.IsOpen → ∀ {ask other : Responder},
    (∀ request, p.Conveys (ask request) (other request)) → ∀ {s : State}, p.waits s →
      ∃ e, p.Agree e (x ask s) (x other s)

/-- It also ends with the signals of what it asks for. -/
def Forwards {α : Type} (x : Responder → Eval α) : Prop :=
  ∀ {p : Passage}, p.IsOpen → ∀ {ask other : Responder},
    (∀ request, p.Conveys (ask request) (other request)) → p.Conveys (x ask) (x other)

theorem Forwards.transparent {α : Type} {x : Responder → Eval α} (forwards : Forwards x) :
    Transparent x :=
  fun opened _ _ asks _ waits => ⟨_, (forwards opened asks).runs _ waits⟩

theorem respond_transparent (bound : Nat) (request : Request) :
    Transparent fun ask => respond bound ask request :=
  fun opened _ _ asks _ waits => ⟨_, Passage.respond opened asks bound request waits⟩

section asked

variable {α : Type} {x : Responder → Eval α} {fuel : Nat} {s t u : State} {request : Request}

/-- A run is not cut off by two faults at once. -/
theorem Asks.differs {ask : Responder} (asked : Asks x ask s request t) :
    ∃ fault, x ask s ≠ x (cutAt ask request t fault) s := by
  obtain ⟨u₁, first⟩ := asked .emptyStack
  obtain ⟨u₂, second⟩ := asked .noScope
  by_cases same : x ask s = x (cutAt ask request t .emptyStack) s
  · refine ⟨.noScope, fun same' => ?_⟩
    rw [same, first, second] at same'
    cases same'
  · exact ⟨.emptyStack, same⟩

theorem answer_conveys {g : Signal} (answered : answer fuel request t = .error (.signal g) u)
    (fault : Fault) (other : Request) : Passage.Conveys ⟨g, fault, g.MayPass, Unwound u⟩
      (answer fuel other) (cutAt (answer fuel) request t fault other) := by
  refine ⟨Steady.compositional.answer fuel other, fun s' _ => ?_⟩
  by_cases hit : other = request ∧ s' = t
  · obtain ⟨rfl, rfl⟩ := hit
    exact .inr ⟨⟨_, cutAt_hit ..⟩, u, .refl, answered⟩
  · exact .inl (cutAt_other hit).symm

/-- A signal that answers a request comes out. -/
theorem Asks.forwarded (forwards : Forwards x) (asked : Asks x (answer fuel) s request t)
    {g : Signal} (answered : answer fuel request t = .error (.signal g) u) (passes : g.MayPass s) :
    ∃ u', Unwound u u' ∧ x (answer fuel) s = .error (.signal g) u' := by
  obtain ⟨fault, differ⟩ := asked.differs
  have conveys := forwards (passes.isOpen fault u) (answer_conveys answered fault)
  rcases conveys.runs s passes with same | ⟨-, found⟩
  · exact absurd same differ
  · exact found

/-- What holds wherever something is evaluated holds where a request is made. -/
theorem Asks.reaches (transparent : Transparent x) (asked : Asks x (answer fuel) s request t)
    {waits : State → Prop} (resumes : ∀ {s t : State}, waits s → s.Resumes t → waits t)
    (enters : ∀ {s : State} (id : ClosureId), waits s →
      waits (s.enterLive (s.shared.closure id).target)) (holds : waits s) : waits t := by
  -- Otherwise nothing would be asked where the run is cut off.
  refine Classical.byContradiction fun never => ?_
  obtain ⟨fault, differ⟩ := asked.differs
  let p : Passage := ⟨.leave default .nil, fault, waits, fun _ => False⟩
  have opened : p.IsOpen :=
    ⟨resumes, enters, .inl ⟨_, _, rfl⟩, fun landed _ => landed⟩
  have asks (other : Request) :
      p.Conveys (answer fuel other) (cutAt (answer fuel) request t fault other) := by
    refine ⟨Steady.compositional.answer fuel other, fun s' holds => .inl (cutAt_other ?_).symm⟩
    rintro ⟨-, rfl⟩
    exact never holds
  obtain ⟨e, same | ⟨-, u, landed, -⟩⟩ := transparent opened asks holds
  · exact differ same
  · exact landed

theorem Asks.orderly (transparent : Transparent x) (asked : Asks x (answer fuel) s request t)
    (orderly : s.Orderly) : t.Orderly := by
  refine asked.reaches transparent (fun before resumes => resumes.orderly before)
    (fun id before => ?_) orderly
  exact (State.Advances.enterLive _ id).orderly before

theorem Asks.mayPass (transparent : Transparent x) (asked : Asks x (answer fuel) s request t)
    {g : Signal} (passes : g.MayPass s) : g.MayPass t :=
  asked.reaches transparent (passes.isOpen default s).resumes (passes.isOpen default s).enters passes

end asked

/-- Answering one request leads to another one. `through` holds of those in between. -/
inductive Leads (through : Request → State → Prop) :
    Nat → Request → State → Nat → Request → State → Prop where
  | refl (fuel : Nat) (request : Request) (s : State) : Leads through fuel request s fuel request s
  | step {fuel last : Nat} {request inner final : Request} {s t u : State} : through request s →
    Asks (fun ask => respond fuel ask request) (answer fuel) s inner t →
    Leads through fuel inner t last final u → Leads through (fuel + 1) request s last final u

/-- A request is made in the course of an evaluation, directly or by what it asks for. -/
def During {α : Type} (x : Responder → Eval α) (fuel : Nat) (s : State) (last : Nat)
    (final : Request) (u : State) : Prop :=
  ∃ request t, Asks x (answer fuel) s request t ∧
    Leads (fun _ _ => True) fuel request t last final u

section paths

variable {through : Request → State → Prop} {fuel last : Nat} {request final : Request}
  {s t u : State}

theorem Leads.reaches (path : Leads through fuel request s last final t) {waits : State → Prop}
    (resumes : ∀ {s t : State}, waits s → s.Resumes t → waits t)
    (enters : ∀ {s : State} (id : ClosureId), waits s →
      waits (s.enterLive (s.shared.closure id).target)) (holds : waits s) : waits t := by
  induction path with
  | refl => exact holds
  | step _ asked _ ih => exact ih (asked.reaches (respond_transparent _ _) resumes enters holds)

theorem Leads.mono (path : Leads through fuel request s last final t) {waits : State → Prop}
    (resumes : ∀ {s t : State}, waits s → s.Resumes t → waits t)
    (enters : ∀ {s : State} (id : ClosureId), waits s →
      waits (s.enterLive (s.shared.closure id).target)) (holds : waits s)
    {weaker : Request → State → Prop}
    (implies : ∀ request s, waits s → through request s → weaker request s) :
    Leads weaker fuel request s last final t := by
  induction path with
  | refl fuel request s => exact .refl fuel request s
  | step passes asked _ ih =>
    have holds' := asked.reaches (respond_transparent _ _) resumes enters holds
    exact .step (implies _ _ holds passes) asked (ih holds')

theorem Leads.orderly (path : Leads through fuel request s last final t) (orderly : s.Orderly) :
    t.Orderly := by
  refine path.reaches (fun before resumes => resumes.orderly before) (fun id before => ?_) orderly
  exact (State.Advances.enterLive _ id).orderly before

/-- The signal gets as far as the end of the method or closure that made the request. -/
theorem Asks.atBoundary {inner : Request}
    (asked : Asks (fun ask => respond fuel ask request) (answer fuel) s inner t) {g : Signal}
    (answered : answer fuel inner t = .error (.signal g) u) (passes : g.MayPass s) :
    ∃ u', Unwound u u' ∧
      answer (fuel + 1) request s = ending (request.boundary s (.error g)) u' := by
  obtain ⟨fault, differ⟩ := asked.differs
  rcases Passage.respond (passes.isOpen fault u) (answer_conveys answered fault) fuel request passes
    with same | ⟨-, found⟩
  · exact absurd same differ
  · exact found

theorem Request.boundary_stop (request : Request) (s : State) (target : Target) (value : Value) :
    request.boundary s (.error (.stop (some target) value)) =
      .error (.stop (some target) value) := by
  cases request with
  | invoke id call =>
    change Method.boundary _ _ = _
    unfold Method.boundary
    split <;> rfl
  | yield id delivery =>
    change Closure.boundary _ _ = _
    unfold Closure.boundary
    split <;> rfl

/-- No end of a method or closure makes anything of an awaited break. -/
theorem Leads.stops (path : Leads through fuel request s last final t) {target : Target}
    {value : Value} (awaits : s.Awaits target)
    (answered : answer last final t = .error (.signal (.stop (some target) value)) u) :
    ∃ u', Unwound u u' ∧
      answer fuel request s = .error (.signal (.stop (some target) value)) u' := by
  induction path with
  | refl => exact ⟨u, .refl, answered⟩
  | @step fuel last request inner final s t _ _ asked _ ih =>
    have passes : (Signal.stop (some target) value).MayPass s := awaits
    have awaits' : t.Awaits target := asked.mayPass (respond_transparent _ _) passes
    obtain ⟨u₁, unwound, ends⟩ := ih awaits' answered
    obtain ⟨u₂, unwound', result⟩ := asked.atBoundary ends passes
    rw [request.boundary_stop] at result
    exact ⟨u₂, unwound.trans unwound', result⟩

theorem During.stops {α : Type} {x : Responder → Eval α} (forwards : Forwards x)
    (during : During x fuel s last final t) {target : Target} {value : Value}
    (awaits : s.Awaits target)
    (answered : answer last final t = .error (.signal (.stop (some target) value)) u) :
    ∃ u', Unwound u u' ∧
      x (answer fuel) s = .error (.signal (.stop (some target) value)) u' := by
  obtain ⟨request, t, asked, path⟩ := during
  have passes : (Signal.stop (some target) value).MayPass s := awaits
  obtain ⟨u₁, unwound, ends⟩ := path.stops (asked.mayPass forwards.transparent passes) answered
  obtain ⟨u₂, unwound', result⟩ := asked.forwarded forwards ends passes
  exact ⟨u₂, unwound.trans unwound', result⟩

end paths

end CallEngine
