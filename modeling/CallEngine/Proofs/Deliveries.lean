import CallEngine.Proofs.Containment
/-! What is delivered to a closure. A yield hands over one value bare and a call packs it into a list,
but the closure cannot tell: it binds the same values to the same slots, or passes the same arguments
on. Only a break that nothing waits for shows that the closure was called. -/
namespace CallEngine
open Eval

/-- As `Eval.yieldArgs` hands the arguments over. -/
def Delivery.ofYield : List Value → Delivery
  | [value] => { value }
  | args => { value := .array args.toArray, isPacked := true }

/-- As `Eval.callClosure` hands the arguments over. -/
def Delivery.ofCall (args : List Value) : Delivery :=
  { value := .array args.toArray, isPacked := true }

/-- One value that is handed over bare is not told from a list of it, whatever it is itself. -/
theorem spreadValues_single (value : Value) :
    spreadValues value false = spreadValues (.array #[value]) true := by
  cases value <;> rfl

theorem wholeValue_single (value : Value) :
    wholeValue value false = wholeValue (.array #[value]) true := by
  cases value <;> rfl

theorem gatheredValue_single (value : Value) :
    gatheredValue value false = gatheredValue (.array #[value]) true :=
  congrArg Value.array (spreadValues_single value)

theorem Eval.assign_single (env : Env) (params : ClosureParams) (value : Value) :
    assign env params value false = assign env params (.array #[value]) true := by
  unfold assign
  rw [spreadValues_single, wholeValue_single, gatheredValue_single]

namespace Delivery

/-- Nothing that a closure does with the one tells it from the other. -/
structure Agrees (d e : Delivery) : Prop where
  self : d.self = e.self
  cls : d.cls = e.cls
  args : d.args = e.args
  assigns : ∀ env params, assign env params d.value d.isPacked = assign env params e.value e.isPacked

theorem args_ofCall (args : List Value) : (ofCall args).args = args := rfl

theorem ofYield_agrees (args : List Value) : Agrees (ofYield args) (ofCall args) := by
  rcases args with _ | ⟨value, _ | ⟨second, rest⟩⟩
  · exact ⟨rfl, rfl, rfl, fun _ _ => rfl⟩
  · refine ⟨rfl, rfl, ?_, fun env params => Eval.assign_single env params value⟩
    cases value <;> rfl
  · exact ⟨rfl, rfl, rfl, fun _ _ => rfl⟩

variable {d e : Delivery} (agrees : Agrees d e)
include agrees

theorem Agrees.yieldLiteral (bound : Nat) (ask : Responder) (closure : Closure)
    (literal : Literal StaticId Node) :
    Eval.yieldLiteral bound ask closure literal d = Eval.yieldLiteral bound ask closure literal e := by
  have frame : closure.frame d = closure.frame e := by
    simp only [Closure.frame, agrees.self, agrees.cls]
  simp only [yieldLiteral_eq, literalBody, frame, agrees.assigns]

theorem Agrees.answer (fuel : Nat) (id : ClosureId) :
    Eval.answer fuel (.yield id d) = Eval.answer fuel (.yield id e) := by
  cases fuel with
  | zero => rfl
  | succ fuel =>
    simp only [Eval.answer, respond, yieldTo, agrees.yieldLiteral, agrees.self, agrees.args]

end Delivery

namespace Eval

variable {s : State} {frame : Frame} {id : ClosureId}

theorem yieldArgs_ofYield (current : s.context.stack.current = .ok frame)
    (own : frame.block = some id) (ask : Responder) (args : List Value) :
    yieldArgs ask args s = ask (.yield id (.ofYield args)) s := by
  unfold yieldArgs
  rw [bind_ok (currentFrame_ok current), own]
  rcases args with _ | ⟨value, _ | ⟨second, rest⟩⟩ <;> rfl

/-- Arguments that a closure accepts are delivered to it. -/
theorem callClosure_ofCall {args : List Value}
    (accepted : (s.shared.closure id).kind = .lambda →
      (s.shared.arity (s.shared.closure id)).check args.length = .ok ()) (ask : Responder) :
    callClosure ask id args s =
      settling (s.shared.closure id) (ask (.yield id (.ofCall args))) s := by
  have found : callClosure ask id args s = _ := bind_ok (x := Eval.closure id) rfl
  rw [found]
  split
  · next kind =>
    change (orRaise (Except.mapError _ ((s.shared.arity _).check args.length)) >>= fun _ => _) s = _
    rw [accepted kind]
    rfl
  · rfl

end Eval

/-- A yield to the block of the current frame and a call of that closure are the same invocation.
What they deliver is bound alike, and passed on to a method as the arguments that were given. They
end alike, but for a break of the closure itself that nothing waits for, which a call turns into an
error. -/
theorem yield_matches_call (fuel : Nat) :
    (∀ value env params,
      assign env params value false = assign env params (.array #[value]) true) ∧
    (∀ args, (Delivery.ofYield args).Agrees (.ofCall args) ∧ (Delivery.ofCall args).args = args) ∧
    ∀ (s : State) frame id args,
      s.context.stack.current = .ok frame → frame.block = some id →
      let called := s.shared.closure id
      (called.kind = .lambda → (s.shared.arity called).check args.length = .ok ()) →
      (∀ ask, yieldArgs ask args s = ask (.yield id (.ofYield args)) s ∧
        callClosure ask id args s = settling called (ask (.yield id (.ofCall args))) s) ∧
      (Engine.callClosure fuel id args s = yieldArgs (answer fuel) args s ∨ ∃ value s',
        yieldArgs (answer fuel) args s = .error (.signal (.stop (some called.target) value)) s' ∧
        (called.kind = .proc ∨ called.target ∉ s'.context.liveLiterals) ∧
        Engine.callClosure fuel id args s =
          .error (.signal (.error (.breakFromClosure value))) s') := by
  refine ⟨fun value env params => assign_single env params value,
    fun args => ⟨Delivery.ofYield_agrees args, Delivery.args_ofCall args⟩, ?_⟩
  intro s frame id args current own called accepted
  have yields (ask : Responder) := yieldArgs_ofYield current own ask args
  have calls (ask : Responder) := callClosure_ofCall accepted ask
  refine ⟨fun ask => ⟨yields ask, calls ask⟩, ?_⟩
  have same : answer fuel (.yield id (.ofYield args)) = answer fuel (.yield id (.ofCall args)) :=
    (Delivery.ofYield_agrees args).answer fuel id
  rw [yields, same, Engine.callClosure, calls]
  exact settling_cases called (answer fuel (.yield id (.ofCall args))) s

/-- The lambda takes one argument, which is an empty list. A packed list is unwrapped once and a bare
value not at all. -/
theorem yield_matches_call_lambda :
    let lambda : Closure :=
      { body := .literal ⟨0, { strategy := .whole, slots := [0] }, .localGet 0 0⟩,
        binding := default, target := ⟨1⟩, kind := .lambda }
    let s : State :=
      ⟨{ memory := { statics := #[{ kind := .closure, vars := ["x"] }] }, closures := #[lambda] },
        { id := 0, main := ⟨0, 0⟩, scopes := [[]],
          stack := .ofRoot { self := .nil, block := some 0 } none }⟩
    ∃ s', yieldArgs (answer 2) [.array #[]] s = .ok (.array #[]) s' ∧
      Engine.callClosure 2 0 [.array #[]] s = .ok (.array #[]) s' := by
  intro lambda s
  obtain ⟨-, ends⟩ := (yield_matches_call 2).2.2 s { self := .nil, block := some 0 } 0 [.array #[]]
    rfl rfl fun _ => rfl
  refine ⟨_, rfl, ?_⟩
  rcases ends with same | ⟨value, s', broke, -⟩
  · exact same
  · cases broke

end CallEngine
