import CallEngine.Proofs.RecastCalls
/-! Whatever runs beside a class's own copy of a method ends as it does with the original, unless it is
stopped. -/
namespace CallEngine
open Eval

section invoke

variable (bound : Nat) (ask : Responder) {id : MethodId} (call : Call) {s : State}

/-- Whether the tree runs or its code, it is as if the tree did. -/
theorem Eval.invoke_tree {definition : Definition} (faithful : s.shared.Faithful)
    (own : (s.shared.library.method id).plain.body = .interpreted definition {}) :
    invoke bound ask id call s = runBody bound ask (s.shared.library.method id).plain definition.params
      call (definition.body.eval bound ask) (s.promote id call.name).2 := by
  have step : invoke bound ask id call s = _ := (congrFun (invoke_eq bound ask id call) s).trans
    (bind_ok (x := Eval.read fun s => (s.shared.library.method id).plain) rfl)
  rw [step]
  simp only [own]
  refine codeToRun_bind call.name faithful own fun code lowered => ?_
  simp only [Tree.exec_lower bound ask definition.body lowered]

theorem Eval.invoke_compiled {scope : StaticId} {params : Params Node} {code : Code}
    (own : (s.shared.library.method id).plain.body = .compiled scope params code) :
    invoke bound ask id call s =
      runBody bound ask (s.shared.library.method id).plain params call (code.exec bound ask) s := by
  have step : invoke bound ask id call s = _ := (congrFun (invoke_eq bound ask id call) s).trans
    (bind_ok (x := Eval.read fun s => (s.shared.library.method id).plain) rfl)
  rw [step]
  simp only [own, Method.runOther]

theorem Eval.invoke_builtin {builtin : Builtin}
    (own : (s.shared.library.method id).plain.body = .builtin builtin) :
    invoke bound ask id call s = entering (s.shared.library.method id).plain.config
      ((s.shared.library.method id).plain.invocation call) (builtin.run bound ask call) s := by
  have step : invoke bound ask id call s = _ := (congrFun (invoke_eq bound ask id call) s).trans
    (bind_ok (x := Eval.read fun s => (s.shared.library.method id).plain) rfl)
  rw [step]
  simp only [own, Method.runOther]

end invoke

/-! An evaluator that stops with a fault rather than do what it is not to do. -/
namespace Precaution

variable (precaution : Precaution)

def guard {α : Type} (bars : State → Bool) (x : Eval α) : Eval α := fun s =>
  if bars s then .error (.fault precaution.fault) s else x s

def perform (ask : Responder) : Performer := fun act =>
  precaution.guard (precaution.bars act) (act.perform ask)

/-- The body of a method is not to end with such a return. -/
def watched (id : MethodId) (x : Eval Value) : Eval Value := fun s =>
  match x s with
  | .error (.signal (.leave target value)) t =>
    if precaution.barsExit id target then .error (.fault precaution.fault) t
    else .error (.signal (.leave target value)) t
  | result => result

def changeAll (cls : ClassId) (visibility : Visibility) : List Value → Eval Unit
  | [] => pure ()
  | value :: rest => do
    let name := (← view value).text
    precaution.guard (precaution.barsChange cls name) (changeVisibility cls visibility name)
    changeAll cls visibility rest

def applyVisibility (visibility : Visibility) (args : List Value) : Eval Value := do
  if args.isEmpty then setVisibility visibility
  else precaution.changeAll (← currentClass) visibility args
  return .nil

variable (bound : Nat) (ask : Responder)

def builtin (call : Call) : Builtin → Eval Value
  | .setVisibility visibility => precaution.applyVisibility visibility call.args
  | .new => do
    let cls ← requireClass call.self
    precaution.guard (precaution.barsNew cls) (instantiate ask cls call.args call.block)
  | builtin => builtin.run bound ask call

def eval (node : Node) : Eval Value := node.evalWith bound (precaution.perform ask)

def exec (code : Code) : Eval Value := code.execWith bound (precaution.perform ask)

def runBody (id : MethodId) (m : Method) (params : Params Node) (call : Call) (body : Eval Value) :
    Eval Value :=
  entering m.config (m.invocation call)
    (precaution.watched id (methodBody (precaution.eval bound ask) m params call body))

def invoke (id : MethodId) (call : Call) : Eval Value := do
  let m := (← method id).plain
  match m.body with
  | .interpreted definition _ => do
    let code ← codeToRun id call.name
    precaution.runBody bound ask id m definition.params call
      (code.elim (precaution.eval bound ask definition.body) (precaution.exec bound ask))
  | .compiled _ params code =>
    precaution.runBody bound ask id m params call (precaution.exec bound ask code)
  | .builtin builtin =>
    entering m.config (m.invocation call) (precaution.builtin bound ask call builtin)

def yieldTo (id : ClosureId) (delivery : Delivery) : Eval Value := do
  let yielded ← closure id
  match yielded.body with
  | .literal literal => do
    let env ← enterScope literal.scope yielded.binding.env
    withFrame (yielded.frame delivery)
      (literalBody bound (precaution.eval bound ask) yielded literal delivery env)
  | .method id name =>
    ask (.invoke id ⟨delivery.self.getD yielded.binding.self, name, delivery.args, none⟩)

def respond : Responder
  | .invoke id call => precaution.invoke bound ask id call
  | .yield id delivery => precaution.yieldTo bound ask id delivery

def answer : Nat → Responder
  | 0 => fun _ => throw .exhausted
  | bound + 1 => precaution.respond bound (answer bound)

theorem watched_bind (id : MethodId) {α : Type} {x : Eval α} (f : α → Eval Value)
    (misses : ∀ target, Catches target x) :
    precaution.watched id (x >>= f) = x >>= fun a => precaution.watched id (f a) := by
  funext s
  simp only [watched, Bind.bind, EStateM.bind]
  cases result : x s with
  | ok a t => rfl
  | error halt t =>
    cases halt with
    | signal g =>
      cases g with
      | leave target value => exact absurd result (misses target s value t)
      | _ => rfl
    | _ => rfl

/-- Whether the tree runs or its code, it is as if the tree did. -/
theorem invoke_tree {id : MethodId} {call : Call} {s : State} {definition : Definition}
    (faithful : s.shared.Faithful)
    (own : (s.shared.library.method id).plain.body = .interpreted definition {}) :
    precaution.invoke bound ask id call s =
      precaution.runBody bound ask id (s.shared.library.method id).plain definition.params call
        (precaution.eval bound ask definition.body) (s.promote id call.name).2 := by
  rw [invoke, Eval.method, read_bind]
  simp only [own]
  refine codeToRun_bind call.name faithful own fun code lowered => ?_
  simp only [Option.elim, eval, exec, Tree.execWith_lower bound _ definition.body lowered]

theorem invoke_compiled {id : MethodId} {call : Call} {s : State} {scope : StaticId}
    {params : Params Node} {code : Code}
    (own : (s.shared.library.method id).plain.body = .compiled scope params code) :
    precaution.invoke bound ask id call s =
      precaution.runBody bound ask id (s.shared.library.method id).plain params call
        (precaution.exec bound ask code) s := by
  rw [invoke, Eval.method, read_bind]
  simp only [own]

theorem invoke_builtin {id : MethodId} {call : Call} {s : State} {builtin : Builtin}
    (own : (s.shared.library.method id).plain.body = .builtin builtin) :
    precaution.invoke bound ask id call s = entering (s.shared.library.method id).plain.config
      ((s.shared.library.method id).plain.invocation call)
        (precaution.builtin bound ask call builtin) s := by
  rw [invoke, Eval.method, read_bind]
  simp only [own]

end Precaution

namespace Recasting

variable {c : Recasting} {outer : List Frame × List Frame} {s t : State}

section acts

theorem Ties.guard {α β : Type} {R : α → β → Prop} {bars : State → Bool} {x : Eval α} {y : Eval β}
    (runs : ∀ {outer s t}, c.States outer s t → bars t = false →
      c.Ends (c.States outer) R (x s) (y t)) : c.Ties R x (c.precaution.guard bars y) := by
  intro outer s t states
  unfold Precaution.guard
  split
  · exact .barred t
  · next clear => exact runs states (Bool.not_eq_true _ ▸ clear)

variable (kept : c.IsKept) (careful : c.IsCareful) {ask ask' : Responder} (asks : c.Answers ask ask')
include kept careful asks

/-- Whatever is not barred is done alike. -/
theorem performs (act : Act) : c.Ties Eq (act.perform ask) (c.precaution.perform ask' act) := by
  refine .guard fun {outer s t} states clear => ?_
  have not_barred (barred : c.precaution.bars act t = true) : False :=
    Bool.false_ne_true (clear.symm.trans barred)
  cases act with
  | call receiver name args block type =>
    exact states.callMethod kept asks fun found tells => not_barred (careful.call found tells)
  | yield args => exact Ties.yieldArgs asks args outer s t states
  | superCall =>
    exact states.superCall kept asks (fun own => not_barred (careful.superOwn own))
      fun current under called found outdated =>
        not_barred (careful.superAbove current under called found outdated)
  | makeProc literal kind =>
    refine states.makeProc kept fun isLambda own => Bool.of_not_eq_false fun unknown => ?_
    subst isLambda
    exact not_barred (careful.lambda own unknown)
  | methodRef name =>
    exact states.methodProc kept fun current found outdated =>
      not_barred (careful.methodRef current found outdated)
  | doReturn value =>
    exact states.returnValue kept fun current aimed ambiguous other active =>
      Bool.of_not_eq_false fun gone =>
        not_barred (careful.doReturn current aimed ambiguous other active gone)
  | define name definition =>
    exact states.defineMethod kept fun own => not_barred (careful.define own)

theorem congruence (bound : Nat) : Congruence (fun (_ : Unit) _ x y => c.Ties Eq x y)
    (fun _ _ => True) bound (Act.perform ask) (c.precaution.perform ask') where
  part _ _ := trivial
  pure _ := .pure rfl
  bind first rest := first.bind rest
  currentSelf := .currentSelf
  localGet _ := Ties.currentEnv.bind fun env => Ties.storage.readVariable env _ _
  localSet value _ := Ties.currentEnv.bind fun env => Ties.storage.writeVariable env _ _ value
  global := .global
  setGlobal := .setGlobal
  binary := .applyBinary
  jump {_ g} jumps := by
    cases g with
    | stop target value =>
      cases target with
      | none => exact .halt (.signal (.stop none value))
      | some target => exact absurd jumps nofun
    | next value => exact .halt (.signal (.next value))
    | redo => exact .halt (.signal .redo)
    | retry => exact .halt (.signal .retry)
    | leave | error => exact absurd jumps nofun
  raised message := .raiseAbout fun directory => .runtime (message.view directory).text
  constant := .constantValue
  blockGiven := .blockGiven
  literal {_ literal _ _} _ calls := .callWithLiteral kept literal calls
  passed value calls := .callWithPassed kept value calls
  looping tests runs := tests.looping runs bound bound
  rescuing runs handles := runs.rescuing handles bound
  classBody _ runs := .classBody _ _ _ _ (runs () trivial)
  act {_ act} _ := performs kept careful asks act

end acts

section views

/-- Only a return that is aimed at one of the two methods may end one method in the first engine and not
in the second one. -/
theorem atMethod_or (kept : c.IsKept) (target : Target) (outcome : Outcome) :
    (outcome.renamed c.target).atMethod (c.target target) =
        (outcome.atMethod target).renamed c.target ∨
      c.Ambiguous target ∧ ∃ aim value, outcome = .error (.leave aim value) ∧ c.Ambiguous aim ∧
        outcome.atMethod target = outcome := by
  by_cases ambiguous : c.Ambiguous target
  · rcases outcome with g | value
    · cases g with
      | leave aim value =>
        by_cases own : aim = target
        · subst own
          refine .inl ?_
          simp [Outcome.renamed, Signal.renamed, Outcome.atMethod]
        · by_cases same : c.target aim = c.target target
          · refine .inr ⟨ambiguous, aim, value, rfl, same.trans ambiguous, ?_⟩
            simp [Outcome.atMethod, own]
          · refine .inl ?_
            simp [Outcome.renamed, Signal.renamed, Outcome.atMethod, own, same]
      | stop aim value => cases aim <;> exact .inl rfl
      | _ => exact .inl rfl
    · exact .inl rfl
  · exact .inl (outcome.atMethod_renamed (kept.alone ambiguous))

theorem Shares.traced (shares : c.Shares s t) (outcome : Outcome) :
    (outcome.renamed c.target).traced s.context.stack =
      (outcome.traced t.context.stack).renamed c.target := by
  rcases outcome with g | value
  · cases g with
    | error e =>
      change (if e.backtrace.isEmpty then _ else _) = Outcome.renamed c.target (if e.backtrace.isEmpty then _ else _)
      rw [shares.names]
      split <;> rfl
    | stop aim value => cases aim <;> rfl
    | _ => rfl
  · rfl

/-- A method and the method that it is cast as. -/
structure Methods (c : Recasting) (call : Call) (m m' : Method) : Prop where
  config : m.config = m'.config
  body : m.body = m'.body
  target : m.target = c.target m'.target
  owners : c.Owners (m'.invocation call).frame (some m.owner)

theorem Methods.calls {call : Call} {m m' : Method} (tied : c.Methods call m m') :
    c.Calls (m.invocation call) (m'.invocation call) := by
  obtain ⟨owner, visibility, config, target, body⟩ := m
  obtain ⟨owner', visibility', config', target', body'⟩ := m'
  obtain ⟨sameConfig, sameBody, sameTarget, owners⟩ := tied
  dsimp only at sameConfig sameBody sameTarget
  subst sameConfig sameBody sameTarget
  refine ⟨some owner, ?_, owners⟩
  cases body <;> rfl

theorem Method.invocation_aim (m : Method) (call : Call) :
    (m.invocation call).target = m.aim := by
  obtain ⟨owner, visibility, config, target, body⟩ := m
  cases body <;> rfl

/-- The copy runs in frames of its own. -/
theorem Libraries.isOwn {library library' : Library} (tied : c.Libraries library library')
    {call : Call} (named : call.name = c.name) :
    c.IsOwn ((library'.method c.copy).plain.invocation call).frame := by
  refine ⟨congrArg some tied.owned, congrArg some named, .inl ?_⟩
  exact (Method.invocation_aim _ call).trans ((library'.method c.copy).aim_plain.trans tied.aimed)

theorem Libraries.methods_tied {library library' : Library} (tied : c.Libraries library library')
    {id : MethodId} {call : Call} (named : id = c.copy → call.name = c.name) :
    c.Methods call (library.method (c.method id)).plain (library'.method id).plain := by
  rw [tied.method]
  by_cases copied : id = c.copy
  · subst copied
    rw [c.recast_copy]
    refine ⟨rfl, rfl, rfl, ?_⟩
    by_cases inherits : c.Inherits
    · exact .inr ⟨inherits, rfl, tied.isOwn (named rfl)⟩
    · have owner : c.owner = (library'.method c.copy).plain.owner :=
        (Decidable.not_not.1 inherits).trans tied.owned.symm
      exact .inl (congrArg some owner)
  · rw [c.recast_ne copied]
    exact ⟨rfl, rfl, rfl, .inl rfl⟩

/-- Nothing but calls were counted and code was made. -/
theorem States.of_plain {s t later later' : State} (states : c.States outer s t) (same : later.plain = s.plain)
    (same' : later'.plain = t.plain) (left : later.shared.Faithful) (right : later'.shared.Faithful) :
    c.States outer later later' := by
  obtain ⟨after, context⟩ := later
  obtain ⟨after', context'⟩ := later'
  obtain rfl : context = s.context := (congrArg State.context same :)
  obtain rfl : context' = t.context := (congrArg State.context same' :)
  have closures : after.closures = s.shared.closures :=
    (congrArg (fun u : State => u.shared.closures) same :)
  have closures' : after'.closures = t.shared.closures :=
    (congrArg (fun u : State => u.shared.closures) same' :)
  have nextTarget : after.nextTarget = s.shared.nextTarget :=
    (congrArg (fun u : State => u.shared.nextTarget) same :)
  have nextTarget' : after'.nextTarget = t.shared.nextTarget :=
    (congrArg (fun u : State => u.shared.nextTarget) same' :)
  have kept {α : Type} (view : State → α) (blind : ∀ u, view u.plain = view u)
      (tied : view s = view t) : view ⟨after, s.context⟩ = view ⟨after', t.context⟩ := by
    rw [← blind, same, blind, tied, ← blind, ← same', blind]
  exact { states with
    library := states.library.of_plain (congrArg (fun u : State => u.shared.library) same :)
      (congrArg (fun u : State => u.shared.library) same' :)
    left, right
    memory := kept (·.shared.memory) (fun _ => rfl) states.memory
    nextObject := kept (·.shared.nextObject) (fun _ => rfl) states.nextObject
    nextTarget := by rw [nextTarget, nextTarget', states.nextTarget]
    given := nextTarget' ▸ states.given
    monitor := kept (·.shared.monitor.silent) (fun _ => rfl) states.monitor
    size := kept (·.shared.closures.size) (fun _ => rfl) states.size
    closures := by simpa only [Shared.closure, closures, closures'] using states.closures
    sound := by simpa only [Shared.closure, closures'] using states.sound }

theorem Closures.frame {closure closure' : Closure} {literal : Literal StaticId Node}
    (tied : c.Closures closure closure') (own : closure'.body = .literal literal)
    (delivery : Delivery) : c.Frames (closure.frame delivery) (closure'.frame delivery) := by
  obtain ⟨cls, within, owners⟩ := tied.captured own
  have under : closure.binding.cls = cls := (congrArg Frame.cls within :)
  have name : closure.binding.frame.name = closure'.binding.frame.name :=
    (congrArg Frame.name within :)
  have block : closure.binding.frame.block = closure'.binding.frame.block :=
    (congrArg Frame.block within :)
  have aimed : closure.binding.frame.jumpTarget = closure'.binding.frame.jumpTarget.map c.target :=
    (congrArg Frame.jumpTarget within :)
  refine ⟨delivery.cls <|> cls, ?_, ?_⟩
  · simp only [Closure.frame, Frame.duplicate, under, name, block, aimed, tied.self, tied.visibility,
      tied.kind, tied.target]
    cases closure'.kind <;> rfl
  · unfold Closure.frame
    cases delivery.cls with
    | none => exact owners
    | some cls => exact .inl rfl

theorem Ends.watched {Q : State → State → Prop} {x y : Eval Value}
    (ends : c.Ends Q Eq (x s) (y t)) (id : MethodId) :
    c.Ends Q Eq (x s) (c.precaution.watched id y t) := by
  unfold Precaution.watched
  generalize x s = left at ends ⊢
  generalize y t = right at ends ⊢
  split
  · split
    · exact .barred _
    · exact ends
  · exact ends

end views

section bodies

variable (kept : c.IsKept) (careful : c.IsCareful) {ask ask' : Responder} (asks : c.Answers ask ask')
  (bound : Nat)

section builtins

include kept careful

theorem Ties.changeAll (cls : ClassId) (visibility : Visibility) (names : List Value) :
    c.Ties Eq (Eval.changeAll cls visibility names)
      (c.precaution.changeAll cls visibility names) := by
  induction names with
  | nil => exact pure rfl
  | cons value rest ih =>
    refine (view value).bind fun view => bind (guard fun states clear => ?_) fun _ => ih
    exact states.changeVisibility kept fun found outdated =>
      Bool.false_ne_true (clear.symm.trans (careful.change found outdated))

/-- Where the copy runs, its class is not to get a visibility for any name. -/
theorem Ties.applyVisibility (visibility : Visibility) (args : List Value) :
    c.Ties Eq (Eval.applyVisibility visibility args)
      (c.precaution.applyVisibility visibility args) := by
  cases args with
  | nil => exact (setVisibility visibility).map _
  | cons value rest =>
    intro outer s t states
    by_cases own : c.RunsOwn t
    · obtain ⟨-, frame, current, -⟩ := id own
      have reads : Eval.currentClass t = .ok (frame.cls.getD Core.object) t :=
        bind_ok (currentFrame_ok current)
      have barred (cls : ClassId) : c.precaution.changeAll cls visibility (value :: rest) t =
          .error (.fault c.precaution.fault) t := by
        rw [Precaution.changeAll, Eval.view, read_bind]
        exact bind_error (if_pos (careful.changeOwn own))
      have stops : c.precaution.applyVisibility visibility (value :: rest) t =
          .error (.fault c.precaution.fault) t := (bind_ok reads).trans (bind_error (barred _))
      exact stops ▸ .barred t
    · exact states.classBind own fun cls =>
        ((changeAll kept careful cls visibility (value :: rest)).map _) outer s t states

include asks

theorem Ties.builtin (builtin : Builtin) (call : Call) :
    c.Ties Eq (builtin.run bound ask call) (c.precaution.builtin bound ask' call builtin) := by
  cases builtin with
  | inspect => exact (view call.self).map _
  | loop => exact (requireBlock _).bind fun block => yieldForever asks block bound
  | setVisibility visibility => exact applyVisibility kept careful visibility call.args
  | new =>
    refine (requireClass _).bind fun cls => guard fun states clear => ?_
    exact states.instantiate kept asks fun found outdated =>
      Bool.false_ne_true (clear.symm.trans (careful.new found outdated))
  | each =>
    exact (requireArray _).bind fun items => (requireBlock _).bind fun block =>
      (yieldItems asks block items items.size).map _
  | size => exact (requireArray _).map _
  | times =>
    exact (requireInt _).bind fun count => (requireBlock _).bind fun block =>
      (yieldCount asks block 0 count.toInt.toNat).map _
  | callClosure => exact (requireProc _).bind fun id => callClosure kept asks id call.args
  | arity =>
    refine (requireProc _).bind fun id => (closure id).bindOn fun called called' tied => ?_
    exact (read fun states => states.arity tied.1.body).map _
  | isLambda =>
    refine (requireProc _).bind fun id => (closure id).bindOn fun called called' tied => ?_
    exact pure (by rw [tied.1.kind])

end builtins

include kept careful asks

/-- A return that ends the body in one engine only is one that is not to leave the call. -/
theorem Ties.methodBody (id : MethodId) {call : Call} {m m' : Method} (target : m.target = c.target m'.target)
    (apart : c.method id ≠ c.original → ¬c.Ambiguous m'.target) (params : Params Node)
    {body body' : Eval Value} (runs : c.Ties Eq body body') :
    c.Ties Eq (Eval.methodBody (Tree.eval bound ask) m params call body)
      (c.precaution.watched id
        (Eval.methodBody (c.precaution.eval bound ask') m' params call body')) := by
  have inside : c.Ties Eq
      (do Eval.bindArguments (Tree.eval bound ask) params call.args call.block; body)
      (do Eval.bindArguments (c.precaution.eval bound ask') params call.args call.block; body') :=
    bind ((congruence kept careful asks bound).bindArguments (p := ()) storage currentEnv params
      call.args call.block) fun _ => runs
  unfold Eval.methodBody
  rw [Precaution.watched_bind _ _ _ fun _ => .observe]
  refine inside.handle fun outcome outer s t states => ?_
  rw [target, read_bind]
  obtain same | ⟨ambiguous, aim, value, rfl, aimed, passes⟩ := atMethod_or kept m'.target outcome
  · refine Ends.watched ?_ id
    rw [read_bind, same, states.traced]
    exact ofOutcome _ outer s t states
  · have original := Decidable.not_not.1 fun other => apart other ambiguous
    have stops : c.precaution.watched id (Eval.read (fun t =>
        (Outcome.atMethod m'.target (.error (.leave aim value))).traced t.context.stack) >>=
          Eval.ofOutcome) t = .error (.fault c.precaution.fault) t := by
      simp only [Precaution.watched, Bind.bind, EStateM.bind, Eval.read, passes]
      exact if_pos (careful.exits original aimed)
    rw [stops]
    exact .barred t

theorem Ties.runBody (id : MethodId) {call : Call} {m m' : Method} (tied : c.Methods call m m')
    (apart : c.method id ≠ c.original → ¬c.Ambiguous m'.target) (params : Params Node)
    {body body' : Eval Value} (runs : c.Ties Eq body body') :
    c.Ties Eq (Eval.runBody bound ask m params call body)
      (c.precaution.runBody bound ask' id m' params call body') := by
  rw [runBody_eq, Precaution.runBody, tied.config]
  exact (methodBody kept careful asks bound id tied.target apart params runs).entering _ tied.calls

theorem States.invoke (states : c.States outer s t) {id : MethodId} {call : Call}
    (named : id = c.copy → call.name = c.name) :
    c.Ends (c.States outer) Eq (Eval.invoke bound ask (c.method id) call s)
      (c.precaution.invoke bound ask' id call t) := by
  have tied := states.library.methods_tied named
  have apart := states.library.apart id
  have bodies := congruence kept careful asks bound
  cases own : (t.shared.library.method id).plain.body with
  | interpreted definition promotion =>
    obtain rfl := Method.plain_interpreted own
    have promoted := states.of_plain (State.promote_plain s (c.method id) call.name)
      (t.promote_plain id call.name) (State.promote_faithful _ _ _ states.left)
      (State.promote_faithful _ _ _ states.right)
    rw [invoke_tree bound ask call states.left (tied.body.trans own),
      Precaution.invoke_tree _ bound ask' states.right own]
    exact Ties.runBody kept careful asks bound id tied apart definition.params
      (bodies.eval (p := ()) definition.body trivial) outer _ _ promoted
  | compiled scope params code =>
    rw [invoke_compiled bound ask call (tied.body.trans own),
      Precaution.invoke_compiled _ bound ask' own]
    exact Ties.runBody kept careful asks bound id tied apart params (bodies.exec (p := ()) code)
      outer s t states
  | builtin builtin =>
    rw [invoke_builtin bound ask call (tied.body.trans own),
      Precaution.invoke_builtin _ bound ask' own, tied.config]
    exact (Ties.builtin kept careful asks bound builtin call).entering _ tied.calls outer s t states

theorem Ties.literalBody {closure closure' : Closure} (tied : c.Closures closure closure')
    (apart : ¬c.Ambiguous closure'.target) (literal : Literal StaticId Node) (delivery : Delivery)
    (env : Env) :
    c.Ties Eq (Eval.literalBody bound (Tree.eval bound ask) closure literal delivery env)
      (Eval.literalBody bound (c.precaution.eval bound ask') closure' literal delivery env) := by
  have body : c.Ties Eq (literal.body.eval bound ask) (c.precaution.eval bound ask' literal.body) :=
    (congruence kept careful asks bound).eval (p := ()) literal.body trivial
  refine withScope env (bind (storage.assign env literal.params _ _) fun _ => ?_)
  refine (body.redoing bound).bindOn ?_
  rintro _ outcome rfl
  rw [tied.target, tied.kind, outcome.atClosure_renamed (kept.alone apart)]
  exact ofOutcome _

theorem Ties.yieldTo (id : ClosureId) (delivery : Delivery) :
    c.Ties Eq (Eval.yieldTo bound ask id delivery)
      (c.precaution.yieldTo bound ask' id delivery) := by
  refine (closure id).bindOn fun yielded yielded' ⟨tied, sound⟩ => ?_
  cases own : yielded'.body with
  | literal literal =>
    have body : yielded.body = .literal literal := by rw [tied.body, own, Recasting.body]
    simp only [body, yieldLiteral_eq, tied.env]
    exact bind (storage.enterScope _ _) fun env =>
      (literalBody kept careful asks bound tied sound.apart literal delivery env).withFrame
        (tied.frame own delivery)
  | method method name =>
    have body : yielded.body = .method (c.method method) name := by rw [tied.body, own, Recasting.body]
    simp only [body, tied.self]
    exact asks.invoke fun copied => sound.named (copied ▸ own)

theorem Answers.respond : c.Answers (Eval.respond bound ask) (c.precaution.respond bound ask')
  | .invoke _ _, named => fun _ _ _ states => states.invoke kept careful asks bound named
  | .yield id delivery, _ => Ties.yieldTo kept careful asks bound id delivery

end bodies

/-- Whatever is asked is answered alike. -/
theorem answer (kept : c.IsKept) (careful : c.IsCareful) (fuel : Nat) :
    c.Answers (Eval.answer fuel) (c.precaution.answer fuel) := by
  -- On how many calls and yields may be inside one another: the bodies ask with one less.
  induction fuel with
  | zero => exact fun _ _ => .halt .exhausted
  | succ fuel ih => exact ih.respond kept careful fuel

end Recasting

end CallEngine
