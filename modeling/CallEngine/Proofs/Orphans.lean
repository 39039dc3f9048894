import CallEngine.Proofs.Containment
import CallEngine.Proofs.Returns
/-! Breaks of closures whose call is over. Calling the closure makes an error of such a break, but
yielding to it lets the break out, and then nothing is left to stop it. -/
namespace CallEngine
open Eval

/-- No break that a closure has claimed. -/
def Signal.Unclaimed (g : Signal) : Prop := ∀ target value, g ≠ .stop (some target) value

theorem Signal.error_unclaimed (e : EvalError) : (Signal.error e).Unclaimed := fun _ _ => nofun

theorem Signal.IsJump.unclaimed {g : Signal} (jumps : g.IsJump) : g.Unclaimed := by
  rintro target value rfl
  exact jumps

/-- A claimed break comes out only while the call of its literal runs. The breaks of `others` may
come out at any time. -/
def Attended (others : Target → Prop) : EvalProperty := fun _ x =>
  ∀ s target value s', x s = .error (.signal (.stop (some target) value)) s' →
    target ∈ s'.context.liveLiterals ∨ others target

/-- If the signal is a claimed break, a call waits for it, or it is one of the others. -/
def Signal.HasWaiter (others : Target → Prop) (g : Signal) (c : Context) : Prop :=
  ∀ target value, g = .stop (some target) value → target ∈ c.liveLiterals ∨ others target

theorem Signal.Unclaimed.hasWaiter {others : Target → Prop} {g : Signal} (unclaimed : g.Unclaimed)
    (c : Context) : g.HasWaiter others c :=
  fun target value same => (unclaimed target value same).elim

/-- Where a literal ceases to be live its own breaks end. -/
theorem Signal.HasWaiter.fits (others : Target → Prop) : Signal.Fits (Signal.HasWaiter others) where
  error e c _ := (Signal.error_unclaimed e).hasWaiter c
  jump c jumps := jumps.unclaimed.hasWaiter c
  leave _ _ _ _ := nofun
  located _ _ := (Signal.error_unclaimed _).hasWaiter _
  popScope := id
  leaveLive {g s own} other waits target value same := by
    refine (waits target value same).imp_left fun member => ?_
    have differs : target ≠ own := by
      rintro rfl
      exact other value same
    exact (List.mem_erase_of_ne differs).2 member

namespace Attended

variable {others : Target → Prop} {α : Type}

theorem iff_emitsIn (x : Eval α) : EmitsIn (Signal.HasWaiter others) x ↔ Attended others x := by
  constructor
  · exact fun emits s target value s' ends => emits s _ s' ends target value rfl
  · rintro attended s g s' ends target value rfl
    exact attended s target value s' ends

theorem mono {x : Eval α} (holds : Attended (fun _ => False) x) : Attended others x :=
  fun s target value s' ends => (holds s target value s' ends).imp_right False.elim

theorem bracketed : Bracketed (Attended others) := by
  have same := EvalProperty.ext (P := EmitsIn (Signal.HasWaiter others)) iff_emitsIn
  exact same ▸ EmitsIn.bracketed (Signal.HasWaiter.fits others) fun _ _ => id

end Attended

/-- A yield ends with the break of its own closure at any time, with others only while they are
waited for. -/
def Claiming (id : ClosureId) (x : Eval Value) : Prop :=
  ∀ s target value s', x s = .error (.signal (.stop (some target) value)) s' →
    target ∈ s'.context.liveLiterals ∨ target = (s.shared.closure id).target

/-- Only the break of the closure itself can be new. -/
theorem Eval.yieldTo_claiming {bound : Nat} {ask : Responder}
    (asks : ∀ request, Attended (fun _ => False) (ask request)) (id : ClosureId)
    (delivery : Delivery) : Claiming id (yieldTo bound ask id delivery) := by
  intro s target value s' ends
  have found : yieldTo bound ask id delivery s = _ := bind_ok (x := Eval.closure id) rfl
  rw [found] at ends
  cases own : (s.shared.closure id).body with
  | literal literal =>
    simp only [own] at ends
    have h : Bracketed (Attended (· = (s.shared.closure id).target)) := Attended.bracketed
    have claims (value : Value) : Attended (· = (s.shared.closure id).target)
        (signal (.stop (some (s.shared.closure id).target) value) : Eval Value) := by
      rintro s aim given s' ⟨⟩
      exact .inr rfl
    exact h.yieldLiteral (fun request => (asks request).mono) bound (fun _ => trivial) claims literal delivery
      s target value s' ends
  | method method name =>
    simp only [own] at ends
    exact (asks _ s target value s' ends).imp_right False.elim

/-- A call of a closure ends with the break of the closure only if a literal's call waits for it. -/
theorem Eval.settling_stop {called : Closure} {yielded : Eval Value} {s s' : State}
    {target : Target} {value : Value}
    (ends : settling called yielded s = .error (.signal (.stop (some target) value)) s') :
    yielded s = .error (.signal (.stop (some target) value)) s' ∧
      (target = called.target → called.kind ≠ .proc ∧ target ∈ s'.context.liveLiterals) := by
  rcases settling_signal ends with ⟨e, same⟩ | yields
  · cases same
  · refine ⟨yields, ?_⟩
    rintro rfl
    simp only [settling, Bind.bind, EStateM.bind, Eval.read, observe, yields] at ends
    split at ends
    · simp only [Outcome.orphaned] at ends
      cases ends
    · next waits => simpa [not_or] using waits

theorem Eval.callClosure_attended {ask : Responder}
    (yields : ∀ id delivery, Claiming id (ask (.yield id delivery))) (id : ClosureId)
    (args : List Value) : Attended (fun _ => False) (callClosure ask id args) := by
  intro s target value s' ends
  rcases callClosure_cases id args s with ⟨e, refused⟩ | same
  · cases (refused ask).symm.trans ends
  · obtain ⟨yielded, waits⟩ := settling_stop ((same ask).symm.trans ends)
    rcases yields id _ s target value s' yielded with live | own
    · exact .inl live
    · exact .inl (waits own).2

/-- Faults where a yield ends with the break of its own closure although no call waits for it. -/
def Eval.withoutStrays (fault : Fault) (ask : Responder) : Responder
  | .invoke id call => ask (.invoke id call)
  | .yield id delivery => fun s =>
    match ask (.yield id delivery) s with
    | .error (.signal (.stop (some target) value)) t =>
      if target = (s.shared.closure id).target ∧ target ∉ t.context.liveLiterals then
        .error (.fault fault) t
      else .error (.signal (.stop (some target) value)) t
    | result => result

/-- The built-in method that calls a closure. -/
def Request.callsClosure (s : State) : Request → Bool
  | .invoke id _ => match (s.shared.library.method id).body with
    | .builtin .callClosure => true
    | _ => false
  | .yield .. => false

theorem Request.body_of_callsClosure {id : MethodId} {call : Call} {s : State}
    (calls : (Request.invoke id call).callsClosure s) :
    (s.shared.library.method id).body = .builtin .callClosure := by
  simp only [Request.callsClosure] at calls
  split at calls
  · assumption
  · cases calls

/-- The evaluator, stopped by a fault at the first break of a closure that is yielded to, not called,
after its call is over. -/
def Eval.answerWithoutStrays (fault : Fault) : Nat → Responder
  | 0 => fun _ => throw .exhausted
  | bound + 1 => fun request s =>
    let ask := answerWithoutStrays fault bound
    respond bound (if request.callsClosure s then ask else withoutStrays fault ask) request s

theorem Eval.withoutStrays_attended (fault : Fault) {ask : Responder}
    (invokes : ∀ id call, Attended (fun _ => False) (ask (.invoke id call)))
    (yields : ∀ id delivery, Claiming id (ask (.yield id delivery))) (request : Request) :
    Attended (fun _ => False) (withoutStrays fault ask request) := by
  cases request with
  | invoke id call => exact invokes id call
  | yield id delivery =>
    intro s target value s' ends
    simp only [withoutStrays] at ends
    split at ends
    · next aim given t yielded =>
      split at ends
      · cases ends
      · next attended =>
        cases ends
        rcases yields id delivery s target value s' yielded with live | own
        · exact .inl live
        · exact .inl (Classical.byContradiction fun stray => attended ⟨own, stray⟩)
    · next others => exact absurd ends (others target value s')

theorem Eval.answerWithoutStrays_attended (fault : Fault) (fuel : Nat) :
    (∀ id call, Attended (fun _ => False) (answerWithoutStrays fault fuel (.invoke id call))) ∧
    ∀ id delivery, Claiming id (answerWithoutStrays fault fuel (.yield id delivery)) := by
  induction fuel with
  | zero => exact ⟨fun _ _ _ _ _ _ => nofun, fun _ _ _ _ _ _ => nofun⟩
  | succ fuel ih =>
    have asks := withoutStrays_attended fault ih.1 ih.2
    refine ⟨fun id call => ?_, fun id delivery => yieldTo_claiming asks id delivery⟩
    intro s target value s' ends
    unfold answerWithoutStrays at ends
    by_cases calls : (Request.invoke id call).callsClosure s
    · -- What is called may end with its own break, and the call makes an error of it.
      have own := Request.body_of_callsClosure calls
      have found : invoke fuel (answerWithoutStrays fault fuel) id call s = _ :=
        bind_ok (x := Eval.method id) rfl
      simp only [calls, if_true] at ends
      change invoke fuel _ id call s = _ at ends
      rw [found] at ends
      simp only [own] at ends
      have h : Bracketed (Attended fun _ => False) := Attended.bracketed
      have runs : Attended (fun _ => False)
          (Builtin.run fuel (answerWithoutStrays fault fuel) .callClosure call) :=
        h.bind (h.control.requireProc call.self) fun closure =>
          callClosure_attended ih.2 closure call.args
      refine h.entering _ _ runs ?_ s target value s' ends
      simp [Method.invocation, own]
    · simp only [calls] at ends
      exact Attended.bracketed.invoke asks fuel (fun _ => trivial) id call s target value s' ends

/-- The node, evaluated up to the first such break. -/
def Eval.evalWithoutStrays (fault : Fault) (fuel : Nat) (node : Node) : Eval Value :=
  node.eval fuel (withoutStrays fault (answerWithoutStrays fault fuel))

theorem Eval.evalWithoutStrays_attended (fault : Fault) (fuel : Nat) (node : Node) :
    Attended (fun _ => False) (evalWithoutStrays fault fuel node) := by
  obtain ⟨invokes, yields⟩ := answerWithoutStrays_attended fault fuel
  exact Attended.bracketed.eval (withoutStrays_attended fault invokes yields) fuel
    (fun _ => trivial) node

/-- Literals are live at the end if they were before. -/
theorem Restores.live {α : Type} {x : Eval α} (restores : Restores x) {s s' : State} {g : Signal}
    (ends : x s = .error (.signal g) s') : s'.context.liveLiterals = s.context.liveLiterals := by
  have restored := restores s
  rw [ends] at restored
  exact restored.live

/-- A call makes an error of the break if no call of a literal waits for it. -/
theorem Eval.callClosure_orphan {ask : Responder} {id : ClosureId} {args : List Value} {s t : State}
    {value : Value} (notLambda : (s.shared.closure id).kind ≠ .lambda)
    (orphan : (s.shared.closure id).kind = .proc ∨
      (s.shared.closure id).target ∉ t.context.liveLiterals)
    (yields : ask (.yield id { value := .array args.toArray, isPacked := true }) s =
      .error (.signal (.stop (some (s.shared.closure id).target) value)) t) :
    callClosure ask id args s = .error (.signal (.error (.breakFromClosure value))) t := by
  have found : callClosure ask id args s = _ := bind_ok (x := Eval.closure id) rfl
  have step : settling (s.shared.closure id) (ask (.yield id _)) s = _ :=
    bind_ok (observe_signal yields)
  rw [found, if_neg notLambda]
  refine step.trans ?_
  change ofOutcome (if _ ∨ ¬t.context.liveLiterals.contains _ = true then _ else _) t = _
  rw [if_pos (by simpa using orphan)]
  simp only [Outcome.orphaned, if_true]
  rfl

theorem Eval.dispatch_orphan {ask : Responder} {receiver : Value} {name : String} {args : List Value}
    {id : ClosureId} {type : CallType} {s t : State} {value : Value}
    (proc : (s.shared.closure id).kind = .proc)
    (calls : callMethod ask receiver name args (some id) type s =
      .error (.signal (.stop (some (s.shared.closure id).target) value)) t) :
    Eval.dispatch ask receiver name args (.pass (.proc id)) type s =
      .error (.signal (.error (.breakFromClosure value))) t := by
  have found : Eval.dispatch ask receiver name args (.pass (.proc id)) type s = _ :=
    bind_ok (x := observe (callMethod ask receiver name args (some id) type)) (observe_signal calls)
  rw [found]
  change ofOutcome (if (s.shared.closure id).kind = .proc then _ else _) t = _
  rw [if_pos proc]
  simp only [Outcome.orphaned, if_true]
  rfl

/-- Where a closure is called after its own call is over, its break is an error that can be rescued.
The same goes for a proc that is passed on. As long as no such closure breaks when it is yielded to,
a claimed break comes out only while a call waits for it, and never at the top level. -/
theorem orphaned_breaks_surface (fuel : Nat) :
    (∀ fault (node : Node) s target value s',
      evalWithoutStrays fault fuel node s = Engine.evalNode fuel node s →
      Engine.evalNode fuel node s = .error (.signal (.stop (some target) value)) s' →
      target ∈ s.context.liveLiterals) ∧
    (∀ fault scope (body : Node) s, s.context.liveLiterals = [] →
      Engine.toplevelOf scope (evalWithoutStrays fault fuel body) s =
        Engine.toplevel fuel scope body s →
      ∀ target value s',
        Engine.toplevel fuel scope body s ≠ .error (.signal (.stop (some target) value)) s') ∧
    (∀ config backend tellsCompiles hooks contexts firstTarget,
      ∀ c ∈ (Session.start config backend tellsCompiles hooks contexts firstTarget).contexts,
        c.liveLiterals = []) ∧
    (∀ id args s value s', (s.shared.closure id).kind ≠ .lambda →
      (s.shared.closure id).kind = .proc ∨
        (s.shared.closure id).target ∉ s.context.liveLiterals →
      Engine.yield fuel id { value := .array args.toArray, isPacked := true } s =
        .error (.signal (.stop (some (s.shared.closure id).target) value)) s' →
      Engine.callClosure fuel id args s =
        .error (.signal (.error (.breakFromClosure value))) s') ∧
    (∀ receiver name args id type s value s', (s.shared.closure id).kind = .proc →
      callMethod (answer fuel) receiver name args (some id) type s =
        .error (.signal (.stop (some (s.shared.closure id).target) value)) s' →
      Engine.dispatch fuel receiver name args (.pass (.proc id)) type s =
        .error (.signal (.error (.breakFromClosure value))) s') ∧
    ∀ value, (EvalError.breakFromClosure value).kind.isRescuable := by
  refine ⟨?_, ?_, ?_, ?_, ?_, fun _ => rfl⟩
  · intro fault node s target value s' clean ends
    rcases evalWithoutStrays_attended fault fuel node s target value s' (clean.trans ends)
      with live | ⟨⟨⟩⟩
    exact (Restores.compositional.evalNode fuel node).live ends ▸ live
  · intro fault scope body s idle clean target value s' ends
    have attended := Attended.bracketed.toplevelOf (evalWithoutStrays_attended fault fuel body) scope
    rcases attended s target value s' (clean.trans ends) with live | ⟨⟨⟩⟩
    rw [(Restores.compositional.toplevel fuel scope body).live ends, idle] at live
    cases live
  · intro config backend tellsCompiles hooks contexts firstTarget
    exact Session.addContexts_all (fun _ _ => rfl) _ contexts nofun
  · intro id args s value s' notLambda orphan yields
    rw [← (Restores.compositional.answer fuel _).live yields] at orphan
    exact callClosure_orphan notLambda orphan yields
  · intro receiver name args id type s value s' proc calls
    exact dispatch_orphan proc calls

/-- The same break is an error where the closure is called, and goes to the literal's call where it is
yielded to in time. At the top level nobody claims it. -/
theorem orphaned_breaks_surface_literal :
    let breaking : Node := .doBreak (some (.int 5))
    let literal : Closure :=
      { body := .literal ⟨0, {}, breaking⟩, binding := default, target := ⟨1⟩, kind := .normal }
    let s : State :=
      ⟨{ closures := #[literal] },
        { id := 0, main := ⟨0, 0⟩, scopes := [[]],
          stack := .ofRoot { self := .nil, block := some 0 } none }⟩
    (∃ s₁, Engine.callClosure 2 0 [] s =
      .error (.signal (.error (.breakFromClosure (.int 5)))) s₁) ∧
    (∃ s₂, Engine.evalNode 2 (.yield []) (s.enterLive ⟨1⟩) =
      .error (.signal (.stop (some ⟨1⟩) (.int 5))) s₂) ∧
    (⟨1⟩ : Target) ∈ (s.enterLive ⟨1⟩).context.liveLiterals ∧
    ∀ target value s₃,
      Engine.toplevel 2 0 breaking s ≠ .error (.signal (.stop (some target) value)) s₃ := by
  intro breaking literal s
  obtain ⟨attended, toplevel, -, called, -⟩ := orphaned_breaks_surface 2
  have yields : Engine.evalNode 2 (.yield []) (s.enterLive ⟨1⟩) =
    .error (.signal (.stop (some ⟨1⟩) (.int 5))) _ := rfl
  have guarded : evalWithoutStrays .noScope 2 (.yield []) (s.enterLive ⟨1⟩) =
    .error (.signal (.stop (some ⟨1⟩) (.int 5))) _ := rfl
  have breaks : Engine.yield 2 0 { value := .array #[], isPacked := true } s =
    .error (.signal (.stop (some ⟨1⟩) (.int 5))) _ := rfl
  refine ⟨⟨_, called 0 [] s (.int 5) _ nofun (.inr nofun) breaks⟩, ⟨_, yields⟩, ?_, ?_⟩
  · exact attended .noScope (.yield []) _ ⟨1⟩ (.int 5) _ (guarded.trans yields.symm) yields
  · have asksNothing (ask : Responder) :
        breaking.eval 2 ask = Eval.signal (.stop none (.int 5)) := rfl
    have same := (asksNothing (withoutStrays .noScope (answerWithoutStrays .noScope 2))).trans
      (asksNothing (answer 2)).symm
    refine toplevel .noScope 0 breaking s rfl ?_
    rw [Engine.toplevel_eq]
    exact congrArg (Engine.toplevelOf 0 · s) same

/-- The claimed break that an evaluation ends with, if its value is an integer. -/
def finalStop? : EStateM.Result Halt State Value → Option (Target × Int64)
  | .error (.signal (.stop (some target) (.int value))) _ => some (target, value)
  | _ => none

theorem of_finalStop? {result : EStateM.Result Halt State Value} {target : Target} {value : Int64}
    (stops : finalStop? result = some (target, value)) :
    ∃ s, result = .error (.signal (.stop (some target) (.int value))) s := by
  unfold finalStop? at stops
  split at stops
  · next s =>
    cases stops
    exact ⟨s, rfl⟩
  · cases stops

/-- The closure that `m` makes yields to the literal of `m { break 1 }` when that call is over. The
break is not its own, so calling it makes no error, and nothing is rescued. -/
theorem yielded_orphan_breaks_out :
    let session := Session.start {} Backend.lowering true [] 1 1
    let s : State := ⟨session.shared, session.contexts.getD 0 default⟩
    let breaking : Literal StaticId Node := ⟨0, {}, .doBreak (some (.int 1))⟩
    let program : Node := .seq
      [.define "m" 0 {} (.makeProc ⟨0, {}, .yield []⟩),
        .rescue (.call (some (.call none "m" [] (.literal breaking))) "call" [] .absent) (.int 2)]
    ∃ s', Engine.toplevel 9 0 program s =
      .error (.signal (.stop (some ⟨15⟩) (.int 1))) s' := by
  intro session s breaking program
  exact of_finalStop? (by decide +kernel)

end CallEngine
