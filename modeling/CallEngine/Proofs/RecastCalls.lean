import CallEngine.Proofs.Postconditions
import CallEngine.Proofs.RecastSteps
import CallEngine.Proofs.Returns
/-! What a class's own copy of a method changes of look-ups, closures, calls and definitions. Where it
would tell, a precaution is to stop the run. -/
namespace CallEngine
open Eval

/-- What a body asks for when it calls super under the frame. -/
def Eval.superUnder (ask : Responder) (frame : Frame) : Eval Value :=
  match frame.cls, frame.name with
  | some cls, some name => do
    let env ← currentEnv
    let args ← Eval.read (·.shared.memory.arguments env)
    match ← Eval.read (·.shared.library.searchAbove cls name) with
    | none => Eval.raise (.noSuperMethod name)
    | some id => do
      Eval.setLastCall .super
      ask (.invoke id ⟨frame.self, name, args, frame.block⟩)
  | _, _ => Eval.raise (.runtime "super called outside of method")

theorem Eval.superCall_eq (ask : Responder) : superCall ask = currentFrame >>= superUnder ask := rfl

/-- What a definition does once its class and its visibility are known. -/
def Eval.defineIn (owner : ClassId) (visibility : Visibility) (name : String) (definition : Definition) :
    Eval Unit :=
  let make (visibility : Visibility) : Eval MethodId := addMethod fun target =>
    ⟨owner, visibility, .frameAndScope, target, .interpreted definition {}⟩
  if visibility = .moduleFunction then
    make .priv >>= fun instanceMethod =>
      copyMethod instanceMethod (fun m => { m with visibility := .pub, config := .moduleFunction }) >>=
        fun singleton => bindMethod owner name instanceMethod >>= fun _ =>
          bindSingleton owner name singleton
  else make visibility >>= bindMethod owner name

theorem Eval.defineMethod_eq (name : String) (definition : Definition) :
    defineMethod name definition = (currentFrame >>= fun frame => currentClass >>= fun owner =>
      defineIn owner frame.visibility name definition >>= fun _ => Pure.pure .nil) := by
  unfold defineMethod defineIn
  congr; funext frame; congr; funext owner
  split <;> rfl

/-- The new object does not change what is looked up. -/
theorem Eval.instantiate_eq (ask : Responder) (cls : ClassId) (args : List Value)
    (block : Option ClosureId) : instantiate ask cls args block =
      (Eval.read (·.shared.library.searchMethod cls "initialize") >>= fun found =>
        newObject cls >>= fun object =>
          match found with
          | some id => do
            let _ ← ask (.invoke id ⟨object, "initialize", args, block⟩)
            return object
          | none =>
            if args.isEmpty then return object
            else Eval.raise (.arityMismatch ⟨args.length, 0⟩)) :=
  rfl

theorem Eval.read_bind {α β : Type} (view : State → α) (k : α → Eval β) (s : State) :
    (Eval.read view >>= k) s = k (view s) s := rfl

/-- Who may call the method does not depend on anything else of it. -/
theorem Eval.checkVisibility_congr {m m' : Method} (owner : m.owner = m'.owner)
    (visibility : m.visibility = m'.visibility) : checkVisibility m = checkVisibility m' := by
  funext receiver name type
  simp only [checkVisibility, owner, visibility]

/-- Nothing is changed by the check. -/
theorem Eval.checkVisibility_cases (m : Method) (receiver : Value) (name : String) (type : CallType)
    (s : State) : checkVisibility m receiver name type s = .ok () s ∨
      ∃ halt, checkVisibility m receiver name type s = .error halt s := by
  unfold checkVisibility
  split
  · exact .inl rfl
  · cases m.visibility with
    | priv => exact .inr ⟨_, rfl⟩
    | prot =>
      cases current : s.context.stack.current with
      | error fault => exact .inr ⟨_, bind_error (bind_error (currentFrame_error current))⟩
      | ok frame =>
        have self : currentSelf s = .ok frame.self s := bind_ok (currentFrame_ok current)
        dsimp only
        rw [bind_ok self, read_bind]
        split
        · exact .inl rfl
        · exact .inr ⟨_, rfl⟩
    | pub | moduleFunction => exact .inl rfl

theorem Eval.checkVisibility_eq {m m' : Method} {receiver : Value} {name : String} {type : CallType}
    {s : State} (same : halted (checkVisibility m receiver name type s) =
      halted (checkVisibility m' receiver name type s)) :
    checkVisibility m receiver name type s = checkVisibility m' receiver name type s := by
  obtain left | ⟨halt, left⟩ := checkVisibility_cases m receiver name type s <;>
    obtain right | ⟨halt', right⟩ := checkVisibility_cases m' receiver name type s <;>
      rw [left, right] at same ⊢ <;> cases same
  rfl

namespace Recasting

variable {c : Recasting} {α β : Type} {R : α → β → Prop} {outer : List Frame × List Frame} {s t : State}

section views

theorem Libraries.arity {library library' : Library} (tied : c.Libraries library library')
    (id : MethodId) : (library.method (c.method id)).arity = (library'.method id).arity := by
  rw [← Method.plain_arity, tied.method, ← (library'.method id).plain_arity]
  unfold recast
  split <;> rfl

namespace Shares

variable (shares : c.Shares s t)
include shares

theorem arity {closure closure' : Closure} (body : closure.body = c.body closure'.body) :
    s.shared.arity closure = t.shared.arity closure' := by
  unfold Shared.arity
  rw [body]
  cases closure'.body with
  | literal literal => rfl
  | method id name => exact shares.library.arity id

theorem directory : s.directory = t.directory := by
  have closures : s.shared.closureView = t.shared.closureView := by
    funext id
    have same := shares.closures id
    simp only [Shared.closureView, same.kind, shares.arity same.body]
    rw [same.body]
    cases (t.shared.closure id).body <;> rfl
  have classes : s.shared.classView = t.shared.classView := by
    funext id
    simp only [Shared.classView, shares.library.name, shares.library.isModule]
  simp only [State.directory, closures, classes, shares.main]

end Shares

namespace Ties

theorem raiseAbout (error : Directory → EvalError) :
    c.Ties R (Eval.raiseWith fun s => error s.directory : Eval α)
      (Eval.raiseWith fun s => error s.directory : Eval β) :=
  raiseWith fun states => congrArg error states.directory

theorem view (value : Value) : c.Ties Eq (Eval.view value) (Eval.view value) :=
  read fun states => congrArg value.view states.directory

theorem applyBinary (op : BinaryOp) (left right : Value) :
    c.Ties Eq (Eval.applyBinary op left right) (Eval.applyBinary op left right) := by
  unfold Eval.applyBinary
  split
  · exact pure rfl
  · exact raiseWith fun states => by rw [states.directory]

theorem closure (id : ClosureId) :
    c.Ties (fun closure closure' => c.Closures closure closure' ∧ c.Sound closure')
      (Eval.closure id) (Eval.closure id) :=
  read fun states => ⟨states.closures id, states.sound id⟩

end Ties

end views

section

variable (c)

/-- Code runs in a frame of the copy of an inherited method. -/
def RunsOwn (t : State) : Prop :=
  c.Inherits ∧ ∃ frame, t.context.stack.current = .ok frame ∧ c.IsOwn frame

/-- A call that is let through if the method is the original, and not if it is the copy, or the other way
round. -/
def Tells (receiver : Value) (name : String) (type : CallType) (t : State) : Prop :=
  let m := t.shared.library.method c.copy
  let check (m : Method) := halted (checkVisibility m receiver name type t)
  check { m with owner := c.owner, visibility := c.visibility } ≠
    check { m with owner := c.cls, visibility := c.copyVisibility }

/-- The precaution is against all that is not the same in both engines. -/
structure IsCareful : Prop where
  call {t : State} {receiver : Value} {name : String} {args : List Value} {block : Option ClosureId}
    {type : CallType} : t.shared.library.findMethod receiver name = some c.copy →
      c.Tells receiver name type t ∨ c.Outdated t.shared.library →
        c.precaution.bars (.call receiver name args block type) t = true
  methodRef {t : State} {frame : Frame} {name : String} : t.context.stack.current = .ok frame →
    t.shared.library.findMethod frame.self name = some c.copy → c.Outdated t.shared.library →
      c.precaution.bars (.methodRef name) t = true
  superOwn {t : State} : c.RunsOwn t → c.precaution.bars .superCall t = true
  superAbove {t : State} {frame : Frame} {cls : ClassId} {name : String} :
    t.context.stack.current = .ok frame → frame.cls = some cls → frame.name = some name →
      t.shared.library.searchAbove cls name = some c.copy → c.Outdated t.shared.library →
        c.precaution.bars .superCall t = true
  define {t : State} {name : String} {definition : Definition} :
    c.RunsOwn t → c.precaution.bars (.define name definition) t = true
  lambda {t : State} {literal : Literal StaticId Node} :
    c.RunsOwn t → c.lambdas ⟨t.shared.nextTarget⟩ = false →
      c.precaution.bars (.makeProc literal .lambda) t = true
  doReturn {t : State} {frame : Frame} {target active : Target} {value : Value} :
    t.context.stack.current = .ok frame → frame.jumpTarget = some target →
      c.Ambiguous target → c.Ambiguous active → t.context.stack.isActive active = true →
        t.context.stack.isActive target = false → c.precaution.bars (.doReturn value) t = true
  changeOwn {t : State} {cls : ClassId} {name : String} :
    c.RunsOwn t → c.precaution.barsChange cls name t = true
  change {t : State} {cls : ClassId} {name : String} :
    t.shared.library.searchMethod cls name = some c.copy → c.Outdated t.shared.library →
      c.precaution.barsChange cls name t = true
  new {t : State} {cls : ClassId} :
    t.shared.library.searchMethod cls "initialize" = some c.copy → c.Outdated t.shared.library →
      c.precaution.barsNew cls t = true
  exits {id : MethodId} {target : Target} :
    c.method id = c.original → c.Ambiguous target → c.precaution.barsExit id target = true

/-- A responder answers what the other one answers in the other engine. -/
def Answers (ask ask' : Responder) : Prop :=
  ∀ request, c.Named request → c.Ties Eq (ask (c.request request)) (ask' request)

end

namespace Answers

variable {ask ask' : Responder} (asks : c.Answers ask ask')
include asks

theorem invoke {id : MethodId} {call : Call} (named : id = c.copy → call.name = c.name) :
    c.Ties Eq (ask (.invoke (c.method id) call)) (ask' (.invoke id call)) :=
  asks (.invoke id call) named

theorem yield (id : ClosureId) (delivery : Delivery) :
    c.Ties Eq (ask (.yield id delivery)) (ask' (.yield id delivery)) :=
  asks (.yield id delivery) trivial

end Answers

/-- Other frames are of one class in both engines. -/
theorem Frames.level {frame frame' : Frame} (tied : c.Frames frame frame')
    (current : t.context.stack.current = .ok frame') (outside : ¬c.RunsOwn t) :
    frame.cls = frame'.cls := by
  obtain same | ⟨inherits, -, own⟩ := tied.owners
  · exact same
  · exact absurd ⟨inherits, frame', current, own⟩ outside

section calls

namespace Ties

theorem checkVisibility (m : Method) (receiver : Value) (name : String) (type : CallType) :
    c.Ties Eq (Eval.checkVisibility m receiver name type)
      (Eval.checkVisibility m receiver name type) := by
  unfold Eval.checkVisibility
  refine ite Iff.rfl (pure rfl) ?_
  cases m.visibility with
  | priv => exact raiseAbout (.restricted · .callsWithoutReceiver name receiver)
  | prot =>
    refine currentSelf.bind fun self => ?_
    refine bind (read fun states => states.library.inherits _ _) fun isKin =>
      ite Iff.rfl (pure rfl) (raiseAbout (.restricted · .callsFromKin name receiver))
  | pub | moduleFunction => exact pure rfl

end Ties

namespace States

variable (states : c.States outer s t)
include states

/-- A call of the copy is let through in both engines or in neither, unless it tells. -/
theorem checkVisibility {id : MethodId} {receiver : Value} {name : String} {type : CallType}
    (silent : id = c.copy → ¬c.Tells receiver name type t) :
    c.Ends (c.States outer) Eq
      (Eval.checkVisibility (s.shared.library.method (c.method id)) receiver name type s)
      (Eval.checkVisibility (t.shared.library.method id) receiver name type t) := by
  have same := states.library.method id
  have checks (m : Method) := Ties.checkVisibility m receiver name type outer s t states
  by_cases copied : id = c.copy
  · subst copied
    rw [c.recast_copy] at same
    let original : Method :=
      { t.shared.library.method c.copy with owner := c.owner, visibility := c.visibility }
    let copied : Method :=
      { t.shared.library.method c.copy with owner := c.cls, visibility := c.copyVisibility }
    have untold : Eval.checkVisibility original receiver name type t =
        Eval.checkVisibility copied receiver name type t :=
      checkVisibility_eq (Classical.not_not.1 (silent rfl))
    have left : Eval.checkVisibility (s.shared.library.method (c.method c.copy)) =
        Eval.checkVisibility original :=
      checkVisibility_congr (congrArg Method.owner same :) (congrArg Method.visibility same :)
    have right : Eval.checkVisibility (t.shared.library.method c.copy) =
        Eval.checkVisibility copied :=
      checkVisibility_congr states.library.owned states.library.visible
    rw [left, right, ← untold]
    exact checks original
  · rw [c.recast_ne copied] at same
    have left : Eval.checkVisibility (s.shared.library.method (c.method id)) =
        Eval.checkVisibility (t.shared.library.method id) :=
      checkVisibility_congr (congrArg Method.owner same :) (congrArg Method.visibility same :)
    rw [left]
    exact checks _

variable (kept : c.IsKept) {ask ask' : Responder} (asks : c.Answers ask ask')
include kept asks

theorem callMethod {receiver : Value} {name : String} {args : List Value} {block : Option ClosureId}
    {type : CallType} (clear : t.shared.library.findMethod receiver name = some c.copy →
      ¬(c.Tells receiver name type t ∨ c.Outdated t.shared.library)) :
    c.Ends (c.States outer) Eq (Eval.callMethod ask receiver name args block type s)
      (Eval.callMethod ask' receiver name args block type t) := by
  have found := states.library.findMethod kept receiver name fun copied => (not_or.1 (clear copied)).2
  rw [Eval.callMethod, Eval.callMethod, read_bind, read_bind, found]
  cases found' : t.shared.library.findMethod receiver name with
  | none => exact Ties.raiseAbout (.noMethod · name receiver) outer s t states
  | some id =>
    have named (copied : id = c.copy) : name = c.name :=
      states.library.find_name (copied ▸ found')
    have silent (copied : id = c.copy) : ¬c.Tells receiver name type t :=
      (not_or.1 (clear (copied ▸ found'))).1
    have goesOn : c.Ties Eq
        (Eval.setLastCall type >>= fun _ => ask (.invoke (c.method id) ⟨receiver, name, args, block⟩))
        (Eval.setLastCall type >>= fun _ => ask' (.invoke id ⟨receiver, name, args, block⟩)) :=
      (Ties.setLastCall type).bind fun _ => asks.invoke named
    exact (states.checkVisibility silent).bind fun _ _ s t _ => goesOn outer s t

/-- Under the same class, super calls go to the same method. -/
theorem superUnder {frame frame' : Frame} (tied : c.Frames frame frame')
    (level : frame.cls = frame'.cls)
    (lasts : ∀ cls name, frame'.cls = some cls → frame'.name = some name →
      t.shared.library.searchAbove cls name = some c.copy → ¬c.Outdated t.shared.library) :
    c.Ends (c.States outer) Eq (Eval.superUnder ask frame s) (Eval.superUnder ask' frame' t) := by
  unfold Eval.superUnder
  rw [level, tied.name, tied.self, tied.block]
  cases under : frame'.cls with
  | none => exact Ties.raise _ outer s t states
  | some cls =>
    cases called : frame'.name with
    | none => exact Ties.raise _ outer s t states
    | some name =>
      have found := states.library.searchAbove kept cls name (lasts cls name under called)
      refine states.envBind fun env => ?_
      rw [read_bind, read_bind, read_bind, read_bind, found, states.memory]
      cases found' : t.shared.library.searchAbove cls name with
      | none => exact Ties.raise _ outer s t states
      | some id =>
        refine Ties.bind (Ties.setLastCall .super) (fun _ => asks.invoke fun copied => ?_) outer s t states
        exact states.library.search_name (copied ▸ found')

/-- The super call of the copy of an inherited method would run the original once more. -/
theorem superCall (outside : ¬c.RunsOwn t)
    (lasts : ∀ {frame cls name}, t.context.stack.current = .ok frame → frame.cls = some cls →
      frame.name = some name → t.shared.library.searchAbove cls name = some c.copy →
        ¬c.Outdated t.shared.library) :
    c.Ends (c.States outer) Eq (Eval.superCall ask s) (Eval.superCall ask' t) := by
  rw [superCall_eq, superCall_eq]
  exact states.frameBind fun current tied =>
    states.superUnder kept asks tied (tied.level current outside) fun _ _ => lasts current

end States

end calls

section closures

/-- What is captured for a lambda, which returns are aimed at then. -/
theorem Frames.aimed {frame frame' : Frame} (tied : c.Frames frame frame') {target : Target}
    (own : c.Inherits → c.IsOwn frame' → c.lambdas target) :
    c.Frames { frame.duplicate with jumpTarget := some (c.target target) }
      { frame'.duplicate with jumpTarget := some target } := by
  obtain ⟨cls, rfl, same | ⟨inherits, owner, runs⟩⟩ := tied
  · exact ⟨cls, rfl, .inl same⟩
  · have lambda := own inherits runs
    exact ⟨cls, rfl, .inr ⟨inherits, owner, runs.1, runs.2.1, .inr ⟨target, rfl, lambda⟩⟩⟩

theorem Frames.duplicate {frame frame' : Frame} (tied : c.Frames frame frame') :
    c.Frames frame.duplicate frame'.duplicate := by
  obtain ⟨cls, rfl, owners⟩ := tied
  exact ⟨cls, rfl, owners⟩

/-- A closure that is made under the frames. -/
theorem Frames.made {frame frame' : Frame} (tied : c.Frames frame frame')
    (next : ⟨s.shared.nextTarget⟩ = c.target ⟨t.shared.nextTarget⟩) (env : Env) {body : ClosureBody}
    {kind : ClosureKind} (clear : ∀ literal, body = .literal literal → kind = .lambda →
      c.Inherits → c.IsOwn frame' → c.lambdas ⟨t.shared.nextTarget⟩) :
    c.Closures (s.shared.made (c.body body) (frame.capture env) kind)
      (t.shared.made body (frame'.capture env) kind) where
  body := rfl
  self := tied.self
  visibility := tied.visibility
  env := rfl
  target := next
  kind := rfl
  captured {literal} own := by
    cases kind with
    | lambda =>
      have aimed := tied.aimed (clear literal own rfl)
      rw [← next] at aimed
      exact aimed
    | normal | proc => exact tied.duplicate

/-- The next identity that is given out stands for the next one. -/
theorem States.nextTarget_succ (states : c.States outer s t) (kept : c.IsKept) :
    ⟨s.shared.nextTarget + 1⟩ = c.target ⟨t.shared.nextTarget + 1⟩ := by
  have next : s.shared.nextTarget = (c.target ⟨t.shared.nextTarget⟩).serial :=
    (congrArg Target.serial states.nextTarget :)
  rw [kept.nextTarget states.given, ← next]

theorem States.addClosure (states : c.States outer s t) (kept : c.IsKept) {binding binding' : Binding}
    {body : ClosureBody} {kind : ClosureKind}
    (made : c.Closures (s.shared.made (c.body body) binding kind) (t.shared.made body binding' kind))
    (named : ∀ name, body = .method c.copy name → name = c.name) :
    c.States outer { s with shared := (s.shared.addClosure (c.body body) binding kind).2 }
      { t with shared := (t.shared.addClosure body binding' kind).2 } := by
  refine { states with
    left := ⟨states.left.backend, states.left.methods⟩
    right := ⟨states.right.backend, states.right.methods⟩
    nextTarget := states.nextTarget_succ kept, given := Nat.lt_succ_of_lt states.given, size := ?_
    closures := fun id => ?_, sound := fun id => ?_ }
  · simpa [Shared.addClosure, Shared.freshTarget] using states.size
  · rw [Shared.closure_added, Shared.closure_added, states.size]
    split
    · exact made
    · exact states.closures id
  · rw [Shared.closure_added]
    split
    · exact ⟨kept.fresh states.given, fun own => named _ own⟩
    · exact states.sound id

theorem Ends.map {Q : State → State → Prop} {x y : Eval α} (ends : c.Ends Q Eq (x s) (y t)) (f : α → β) :
    c.Ends Q Eq ((do return f (← x) : Eval β) s) ((do return f (← y) : Eval β) t) :=
  ends.bind fun _ _ _ _ same => .ok (congrArg f same)

namespace States

variable (states : c.States outer s t) (kept : c.IsKept)
include states kept

/-- Lambdas are to be known that are made where the copy runs. -/
theorem makeClosure (body : ClosureBody) (kind : ClosureKind)
    (named : ∀ name, body = .method c.copy name → name = c.name)
    (clear : ∀ literal, body = .literal literal → kind = .lambda → c.RunsOwn t →
      c.lambdas ⟨t.shared.nextTarget⟩) :
    c.Ends (c.States outer) Eq (Eval.makeClosure (c.body body) kind s)
      (Eval.makeClosure body kind t) := by
  refine states.frameBind fun {frame frame'} current tied => states.envBind fun env => ?_
  refine .ok states.size (states.addClosure kept (tied.made states.nextTarget env ?_) named)
  exact fun literal own isLambda inherits runs =>
    clear literal own isLambda ⟨inherits, frame', current, runs⟩

theorem makeProc {literal : Literal StaticId Node} {kind : ClosureKind}
    (clear : kind = .lambda → c.RunsOwn t → c.lambdas ⟨t.shared.nextTarget⟩) :
    c.Ends (c.States outer) Eq (Eval.makeProc literal kind s) (Eval.makeProc literal kind t) :=
  (states.makeClosure kept (.literal literal) kind nofun fun _ _ => clear).map _

theorem methodProc {name : String} (lasts : ∀ {frame}, t.context.stack.current = .ok frame →
      t.shared.library.findMethod frame.self name = some c.copy → ¬c.Outdated t.shared.library) :
    c.Ends (c.States outer) Eq (Eval.methodProc name s) (Eval.methodProc name t) := by
  rw [Eval.methodProc, Eval.currentSelf, bind_assoc]
  refine states.frameBind fun {frame frame'} current tied => ?_
  have found := states.library.findMethod kept frame'.self name (lasts current)
  rw [pure_bind, pure_bind, read_bind, read_bind, tied.self, found]
  cases found' : t.shared.library.findMethod frame'.self name with
  | none => exact Ties.raiseAbout (.noMethod · name frame'.self) outer s t states
  | some id =>
    refine (states.makeClosure kept (.method id name) .lambda (fun name' own => ?_) nofun).map _
    cases own
    exact states.library.find_name found'

theorem returnValue {value : Value} (clear : ∀ {frame target active},
      t.context.stack.current = .ok frame → frame.jumpTarget = some target → c.Ambiguous target →
        c.Ambiguous active → t.context.stack.isActive active = true →
          t.context.stack.isActive target = true) :
    c.Ends (c.States outer) Eq (Eval.returnValue value s) (Eval.returnValue value t) := by
  obtain ⟨frame, frame', left, right, tied⟩ | ⟨left, right⟩ := states.currentFrame
  · rw [Eval.returnValue_eq left, Eval.returnValue_eq right, tied.jumpTarget]
    cases aimed : frame'.jumpTarget with
    | none => exact .error (.signal (.error (.unexpectedReturn value))) states
    | some target =>
      have active : s.context.stack.isActive (c.target target) = t.context.stack.isActive target := by
        rw [Bool.eq_iff_iff, states.active]
        refine ⟨?_, fun active => ⟨target, rfl, active⟩⟩
        rintro ⟨active, same, runs⟩
        by_cases ambiguous : c.Ambiguous target
        · exact clear right aimed ambiguous (same.trans ambiguous) runs
        · obtain rfl := kept.alone ambiguous active same
          exact runs
      simp only [Option.map_some, active]
      split
      · exact .error (.signal (.leave target value)) states
      · exact .error (.signal (.error (.unexpectedReturn value))) states
  · have stuck {u : State} (none : u.context.stack.current = .error .emptyStack) :
        Eval.returnValue value u = .error (.fault .emptyStack) u := bind_error (currentFrame_error none)
    rw [stuck left, stuck right]
    exact .error (.fault .emptyStack) states

end States

namespace Ties

theorem passedBlock (value : Value) :
    c.Ties Eq (Eval.passedBlock value) (Eval.passedBlock value) := by
  unfold Eval.passedBlock
  split
  · exact pure rfl
  · exact pure rfl
  · exact raiseAbout fun directory =>
      .runtime ("wrong argument type " ++ value.typeName directory ++ " (expected Proc)")

variable (kept : c.IsKept)
include kept

section target

variable {target : Target} (apart : ¬c.Ambiguous target)
include apart

/-- A closure's own identity is told from all others in both engines. -/
theorem whileLive {x y : Eval Value} (holds : c.Ties Eq x y) :
    c.Ties (fun outcome outcome' => outcome = outcome'.renamed c.target)
      (Eval.whileLive (c.target target) x) (Eval.whileLive target y) := by
  have leaves : c.Ties Eq (modify (State.leaveLive · (c.target target)))
      (modify (State.leaveLive · target)) := by
    refine update fun {_ s t} states => ⟨rfl, { states with live := ?_ }⟩
    have erased := erase_renamed (kept.alone apart) t.context.liveLiterals
    exact (congrArg (List.erase · (c.target target)) states.live).trans erased
  have enters : c.Ties Eq (modify (State.enterLive · (c.target target)))
      (modify (State.enterLive · target)) :=
    update fun states => ⟨rfl, { states with live := congrArg (c.target target :: ·) states.live }⟩
  exact enters.bind fun _ => holds.observe.bindOn fun _ _ same => leaves.bind fun _ => pure same

theorem orphanedIf (q : Prop) [Decidable q] (outcome : Outcome) :
    c.Ties Eq
      (Eval.ofOutcome (if q then (outcome.renamed c.target).orphaned (c.target target)
        else outcome.renamed c.target))
      (Eval.ofOutcome (if q then outcome.orphaned target else outcome)) := by
  rw [outcome.orphaned_renamed (kept.alone apart), ← apply_ite]
  exact ofOutcome _

end target

/-- The closure is live while its call runs. -/
theorem callWithLiteral (literal : Literal StaticId Node) {call call' : ClosureId → Eval Value}
    (calls : ∀ closure, c.Ties Eq (call closure) (call' closure)) :
    c.Ties Eq (Eval.callWithLiteral literal call) (Eval.callWithLiteral literal call') := by
  have makes : c.Ties Eq (Eval.makeClosure (.literal literal) .normal)
      (Eval.makeClosure (.literal literal) .normal) :=
    fun _ _ _ states => states.makeClosure kept (.literal literal) .normal nofun nofun
  refine makes.bind fun id => (closure id).bindOn fun own own' ⟨tied, sound⟩ => ?_
  rw [tied.target]
  refine (whileLive kept sound.apart (calls id)).bindOn ?_
  rintro _ outcome rfl
  rw [outcome.atLiteral_renamed (kept.alone sound.apart)]
  exact ofOutcome _

theorem callWithPassed (value : Value) {call call' : Option ClosureId → Eval Value}
    (calls : ∀ block, c.Ties Eq (call block) (call' block)) :
    c.Ties Eq (Eval.callWithPassed value call) (Eval.callWithPassed value call') := by
  refine (passedBlock value).bind fun block => ?_
  cases block with
  | none => exact calls none
  | some id =>
    refine (closure id).bindOn fun passed passed' ⟨tied, sound⟩ => ?_
    rw [tied.target, tied.kind]
    exact (calls (some id)).handle (orphanedIf kept sound.apart _)

variable {ask ask' : Responder} (asks : c.Answers ask ask')
include asks

omit kept in
theorem yieldArgs (args : List Value) :
    c.Ties Eq (Eval.yieldArgs ask args) (Eval.yieldArgs ask' args) := by
  refine frameBind fun tied => ?_
  rw [tied.block]
  split
  · exact raise _
  · split <;> exact asks.yield _ _

theorem callClosure (id : ClosureId) (args : List Value) :
    c.Ties Eq (Eval.callClosure ask id args) (Eval.callClosure ask' id args) := by
  refine (closure id).bindOn fun called called' ⟨tied, sound⟩ => ?_
  have rest : c.Ties Eq
      (Eval.observe (ask (.yield id { value := .array args.toArray, isPacked := true })) >>=
        fun outcome => Eval.read (·.context.liveLiterals.contains called.target) >>= fun isLive =>
          Eval.ofOutcome (if called.kind = .proc ∨ ¬isLive then outcome.orphaned called.target
            else outcome))
      (Eval.observe (ask' (.yield id { value := .array args.toArray, isPacked := true })) >>=
        fun outcome => Eval.read (·.context.liveLiterals.contains called'.target) >>= fun isLive =>
          Eval.ofOutcome (if called'.kind = .proc ∨ ¬isLive then outcome.orphaned called'.target
            else outcome)) := by
    rw [tied.target, tied.kind]
    refine (asks.yield id _).handle fun outcome => bind (read fun {_ s t} states => ?_) fun isLive => ?_
    · rw [states.live]
      exact contains_renamed (kept.alone sound.apart) t.context.liveLiterals
    · exact orphanedIf kept sound.apart _ outcome
  refine ite (by rw [tied.kind]) ?_ rest
  refine bind (read fun states => states.arity tied.body) fun arity => ?_
  exact (orRaise _).bind fun _ => rest

end Ties

end closures

section definitions

/-- A change of the classes only. -/
theorem States.classes {s t : State} (states : c.States outer s t) {library library' : Library}
    (tied : c.Libraries library library') (left : library.methods = s.shared.library.methods)
    (right : library'.methods = t.shared.library.methods) :
    c.States outer { s with shared.library := library } { t with shared.library := library' } := by
  have same {u : State} (faithful : u.shared.Faithful) {library : Library}
      (methods : library.methods = u.shared.library.methods) :
      { u.shared with library }.Faithful := by
    refine ⟨faithful.backend, fun id => ?_⟩
    have method : library.method id = u.shared.library.method id := by
      simp only [Library.method, methods]
    exact method ▸ faithful.methods id
  exact { states with library := tied, left := same states.left left, right := same states.right right }

theorem States.addMethod {s t : State} (states : c.States outer s t) (kept : c.IsKept)
    {f f' : Target → Method} (own : ∀ target, (f' target).target = target)
    (plain : ∀ target, (f' target).plain = f' target)
    (same : ∀ target, f (c.target target) = { f' target with target := c.target target }) :
    c.States outer { s with shared := (s.shared.addMethod f).2 } { t with shared := (t.shared.addMethod f').2 } := by
  have plain' (target : Target) : (f (c.target target)).plain = f (c.target target) := by
    have fixed := plain target
    rw [same]
    generalize f' target = m at fixed
    obtain ⟨owner, visibility, config, aimed, body⟩ := m
    cases body <;> exact congrArg (fun m : Method => { m with target := c.target target }) fixed
  have added (u : State) {m : Method} (faithful : u.shared.Faithful) (fixed : m.plain = m) :
      { u.shared with
        nextTarget := u.shared.nextTarget + 1
        library := (u.shared.library.addMethod m).2 }.Faithful := by
    refine ⟨faithful.backend, fun id => ?_⟩
    change ((u.shared.library.addMethod m).2.method id).Faithful
    rw [Library.method_addMethod]
    split
    · exact Method.faithful_of_plain fixed
    · exact faithful.methods id
  refine { states with
    library := ?_
    left := added s states.left ?_
    right := added t states.right (plain _)
    nextTarget := states.nextTarget_succ kept
    given := Nat.lt_succ_of_lt states.given }
  · refine states.library.addMethod kept ?_ ?_
    · rw [states.nextTarget, plain', same, plain, own]
    · rw [own]
      exact kept.fresh states.given
  · rw [states.nextTarget]
    exact plain' _

theorem States.classBind (states : c.States outer s t) (outside : ¬c.RunsOwn t)
    {f : ClassId → Eval α} {g : ClassId → Eval β}
    (rest : ∀ cls, c.Ends (c.States outer) R (f cls s) (g cls t)) :
    c.Ends (c.States outer) R ((Eval.currentClass >>= f) s) ((Eval.currentClass >>= g) t) := by
  rw [Eval.currentClass, bind_assoc, bind_assoc]
  refine states.frameBind fun current tied => ?_
  rw [pure_bind, pure_bind, tied.level current outside]
  exact rest _

namespace Ties

variable (kept : c.IsKept)
include kept

/-- What comes next knows that the method is a new one. -/
theorem adding (f f' : State → Target → Method) (own : ∀ t target, (f' t target).target = target)
    (plain : ∀ t target, (f' t target).plain = f' t target)
    (same : ∀ {outer s t}, c.States outer s t → ∀ target,
      f s (c.target target) = { f' t target with target := c.target target })
    {k : MethodId → Eval α} {k' : MethodId → Eval β}
    (rest : ∀ id, c.copy < id → c.Ties R (k (c.method id)) (k' id)) :
    c.Ties R
      ((modifyGet fun s => ((s.shared.addMethod (f s)).1,
        { s with shared := (s.shared.addMethod (f s)).2 })) >>= k)
      ((modifyGet fun s => ((s.shared.addMethod (f' s)).1,
        { s with shared := (s.shared.addMethod (f' s)).2 })) >>= k') := by
  intro outer s t states
  have runs := rest _ states.library.copied outer _ _
    (states.addMethod kept (own t) (plain t) (same states))
  rw [← states.library.methods] at runs
  exact runs

theorem addMethod (f : Target → Method) (own : ∀ target, (f target).target = target)
    (plain : ∀ target, (f target).plain = f target)
    (same : ∀ target, f (c.target target) = { f target with target := c.target target })
    {k : MethodId → Eval α} {k' : MethodId → Eval β}
    (rest : ∀ id, c.copy < id → c.Ties R (k (c.method id)) (k' id)) :
    c.Ties R (Eval.addMethod f >>= k) (Eval.addMethod f >>= k') :=
  adding kept (fun _ => f) (fun _ => f) (fun _ => own) (fun _ => plain) (fun _ => same) rest

/-- A further copy does not depend on the owner and the visibility that differ. -/
theorem copyMethod (source : MethodId) (change : Method → Method)
    (own : ∀ m, (change m).target = m.target) (body : ∀ m, (change m).body = m.body)
    (same : ∀ (m : Method) target owner visibility, (source ≠ c.copy → owner = m.owner) →
      change { m with target, owner, visibility } = { change m with target })
    {k : MethodId → Eval α} {k' : MethodId → Eval β}
    (rest : ∀ id, c.copy < id → c.Ties R (k (c.method id)) (k' id)) :
    c.Ties R (Eval.copyMethod (c.method source) change >>= k) (Eval.copyMethod source change >>= k') := by
  let copying (source : MethodId) (s : State) (target : Target) : Method :=
    change ((s.shared.library.method source).renewed target)
  refine adding kept (copying (c.method source)) (copying source) (fun t target => own _)
    (fun t target => ?_) (fun {outer s t} states target => ?_) rest
  · exact Method.plain_of_body (m := t.shared.library.method source) (body _)
  · obtain ⟨owner, visibility, unchanged, renewed⟩ := states.library.renewed source target
    exact (congrArg change renewed).trans (same _ _ owner visibility unchanged)

omit kept in
theorem bindMethod {id : MethodId} (new : c.copy < id) (cls : ClassId) (name : String) :
    c.Ties Eq (Eval.bindMethod cls name (c.method id)) (Eval.bindMethod cls name id) :=
  update fun states => ⟨rfl, states.classes (states.library.defineMethod new cls name) rfl rfl⟩

omit kept in
theorem bindSingleton {id : MethodId} (new : c.copy < id) (cls : ClassId) (name : String) :
    c.Ties Eq (Eval.bindSingleton cls name (c.method id)) (Eval.bindSingleton cls name id) :=
  update fun states => ⟨rfl, states.classes (states.library.defineSingleton new cls name) rfl rfl⟩

theorem defineIn (owner : ClassId) (visibility : Visibility) (name : String)
    (definition : Definition) :
    c.Ties Eq (Eval.defineIn owner visibility name definition)
      (Eval.defineIn owner visibility name definition) := by
  have makes (visibility : Visibility) {k k' : MethodId → Eval Unit}
      (rest : ∀ id, c.copy < id → c.Ties Eq (k (c.method id)) (k' id)) :=
    addMethod kept (fun target => ⟨owner, visibility, .frameAndScope, target,
      .interpreted definition {}⟩) (fun _ => rfl) (fun _ => rfl) (fun _ => rfl) rest
  refine ite Iff.rfl (makes .priv fun id new => ?_) (makes visibility fun id new => bindMethod new owner name)
  have other : id ≠ c.copy := Nat.ne_of_gt new
  refine copyMethod kept id (fun m => { m with visibility := .pub, config := .moduleFunction })
    (fun _ => rfl) (fun _ => rfl) (fun m target owner visibility same => ?_) fun singleton new' =>
      (bindMethod new owner name).bind fun _ => bindSingleton new' owner name
  rw [same other]

omit kept in
theorem openClass (name : String) (superclass : Option String) (isModule : Bool) :
    c.Ties Eq (Eval.openClass name superclass isModule)
      (Eval.openClass name superclass isModule) := by
  have opens : c.Ties Eq
      (modifyGet fun s : State => ((), { s with
        shared.library := s.shared.library.opened name superclass isModule }))
      (modifyGet fun s : State => ((), { s with
        shared.library := s.shared.library.opened name superclass isModule })) :=
    update fun states => ⟨rfl, states.classes (states.library.openClass name superclass isModule).2
      (Library.opened_methods ..) (Library.opened_methods ..)⟩
  rw [openClass_eq]
  exact bind (read fun states => (states.library.openClass name superclass isModule).1) fun result =>
    (orRaise result).bind fun id => opens.map _

omit kept in
theorem classBody (name : String) (superclass : Option String) (isModule : Bool) (scope : StaticId)
    {body body' : Eval Value} (runs : c.Ties Eq body body') :
    c.Ties Eq (Eval.classBody name superclass isModule scope body)
      (Eval.classBody name superclass isModule scope body') := by
  refine (openClass name superclass isModule).bind fun id => ?_
  refine (storage.enterScope scope []).bind fun env => ?_
  exact (runs.withScope env).withFrame ⟨some id, rfl, .inl rfl⟩

end Ties

namespace States

variable (states : c.States outer s t) (kept : c.IsKept)
include states kept

theorem defineMethod {name : String} {definition : Definition} (outside : ¬c.RunsOwn t) :
    c.Ends (c.States outer) Eq (Eval.defineMethod name definition s)
      (Eval.defineMethod name definition t) := by
  rw [defineMethod_eq]
  refine states.frameBind fun {frame frame'} _ tied => states.classBind outside fun owner => ?_
  rw [tied.visibility]
  exact ((Ties.defineIn kept owner frame'.visibility name definition).map _) outer s t states

/-- A class's own copy in another class. -/
theorem changeVisibility {cls : ClassId} {visibility : Visibility} {name : String}
    (lasts : t.shared.library.searchMethod cls name = some c.copy → ¬c.Outdated t.shared.library) :
    c.Ends (c.States outer) Eq (Eval.changeVisibility cls visibility name s)
      (Eval.changeVisibility cls visibility name t) := by
  rw [Eval.changeVisibility, read_bind, read_bind, states.library.searchMethod kept cls name lasts]
  cases t.shared.library.searchMethod cls name with
  | none => exact Ties.raiseAbout (.noMethod · name (.cls cls)) outer s t states
  | some source =>
    refine Ties.ite Iff.rfl ?_ ?_ outer s t states
    · refine Ties.copyMethod kept source (fun m => { m with owner := cls, visibility := .priv })
        (fun _ => rfl) (fun _ => rfl) (fun _ _ _ _ _ => rfl) fun copy new => ?_
      refine Ties.copyMethod kept source
        (fun m => { m with owner := cls, visibility := .pub, config := .moduleFunction })
        (fun _ => rfl) (fun _ => rfl) (fun _ _ _ _ _ => rfl) fun singleton new' => ?_
      exact (Ties.bindSingleton new' cls name).bind fun _ => Ties.bindMethod new cls name
    · exact Ties.copyMethod kept source (fun m => { m with owner := cls, visibility })
        (fun _ => rfl) (fun _ => rfl) (fun _ _ _ _ _ => rfl) fun copy new => Ties.bindMethod new cls name

end States

end definitions

section builtins

namespace Ties

theorem wrongReceiver (expected : String) (found : Value) :
    c.Ties R (Eval.wrongReceiver expected found : Eval α) (Eval.wrongReceiver expected found : Eval β) :=
  raiseAbout (.wrongReceiver · expected found)

theorem requireBlock (block : Option ClosureId) :
    c.Ties Eq (Eval.requireBlock block) (Eval.requireBlock block) := by
  cases block with
  | none => exact raise _
  | some id => exact pure rfl

theorem requireInt (value : Value) : c.Ties Eq (Eval.requireInt value) (Eval.requireInt value) := by
  unfold Eval.requireInt
  split
  · exact pure rfl
  · exact wrongReceiver "Integer" value

theorem requireArray (value : Value) :
    c.Ties Eq (Eval.requireArray value) (Eval.requireArray value) := by
  unfold Eval.requireArray
  split
  · exact pure rfl
  · exact wrongReceiver "Array" value

theorem requireProc (value : Value) :
    c.Ties Eq (Eval.requireProc value) (Eval.requireProc value) := by
  unfold Eval.requireProc
  split
  · exact pure rfl
  · exact wrongReceiver "Proc" value

theorem requireClass (value : Value) :
    c.Ties Eq (Eval.requireClass value) (Eval.requireClass value) := by
  unfold Eval.requireClass
  split
  · exact bind (read fun states => states.library.isModule _) fun isModule =>
      ite Iff.rfl (wrongReceiver "Class" _) (pure rfl)
  · exact wrongReceiver "Class" _

variable {ask ask' : Responder} (asks : c.Answers ask ask')
include asks

theorem yieldForever (block : ClosureId) (bound : Nat) :
    c.Ties Eq (Eval.yieldForever ask block bound) (Eval.yieldForever ask' block bound) := by
  induction bound with
  | zero => exact halt .exhausted
  | succ bound ih => exact poll.bind fun _ => (asks.yield block _).bind fun _ => ih

theorem yieldItems (block : ClosureId) (items : Array Value) (left : Nat) :
    c.Ties Eq (Eval.yieldItems ask block items left) (Eval.yieldItems ask' block items left) := by
  induction left with
  | zero => exact pure rfl
  | succ left ih => exact poll.bind fun _ => (asks.yield block _).bind fun _ => ih

theorem yieldCount (block : ClosureId) (start : Int64) (count : Nat) :
    c.Ties Eq (Eval.yieldCount ask block start count) (Eval.yieldCount ask' block start count) := by
  induction count generalizing start with
  | zero => exact pure rfl
  | succ count ih => exact poll.bind fun _ => (asks.yield block _).bind fun _ => ih _

end Ties

theorem States.instantiate (states : c.States outer s t) (kept : c.IsKept) {ask ask' : Responder}
    (asks : c.Answers ask ask') {cls : ClassId} {args : List Value} {block : Option ClosureId}
    (lasts : t.shared.library.searchMethod cls "initialize" = some c.copy →
      ¬c.Outdated t.shared.library) :
    c.Ends (c.States outer) Eq (Eval.instantiate ask cls args block s)
      (Eval.instantiate ask' cls args block t) := by
  rw [instantiate_eq, instantiate_eq, read_bind, read_bind, states.library.searchMethod kept _ _ lasts]
  cases found : t.shared.library.searchMethod cls "initialize" with
  | none =>
    refine (Ties.newObject cls).bind (fun object => ?_) outer s t states
    exact .ite Iff.rfl (.pure rfl) (.raise _)
  | some id =>
    refine (Ties.newObject cls).bind (fun object => ?_) outer s t states
    exact (asks.invoke fun copied => states.library.search_name (copied ▸ found)).map _

end builtins

end Recasting

end CallEngine
