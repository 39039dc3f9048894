import CallEngine.Proofs.Soundness
/-! Sessions that run trees which fit their scopes. -/
namespace CallEngine
open StaticScope (sizing Persist)

namespace Session

/-- The sizes of the scopes that have a name after the command, given those before it, if the
command runs a tree that fits its scope or does not run anything. A scope keeps the variables that
it was first given. -/
def Command.sizes? (named : Table Nat) : Command → Option (Table Nat)
  | .run body vars scope =>
    let size := (scope.bind named.get?).getD vars.length
    if body.isScoped ScopeDecl.sizing [size] then some (scope.elim named (named.insert · size))
    else none
  | .interrupt | .addHook _ | .removeHook _ => some named
  | _ => none

/-- Whether every tree that is run fits its scope. -/
def scopedRuns (named : Table Nat) : List Step → Bool
  | [] => true
  | first :: rest => (first.command.sizes? named).any (scopedRuns · rest)

/-- What the session holds fits its scopes, and those with a name have the sizes in `named`. -/
structure Fits (named : Table Nat) (session : Session) : Prop where
  sound : Sound session.shared.memory.statics session.shared
  scopes : ∀ name,
    (session.names.scopes.get? name).map (sizing session.shared.memory.statics).method =
      (named.get? name).map some

end Session

theorem EndsSafely.resolve {α β : Type} {z : Array StaticScope} {s : State} {resolver : Resolver α}
    {fits : Array StaticScope → α → Prop} {f : α → Eval β} (resolves : Resolves z resolver fits)
    (sound : Sound z s.shared)
    (rest : ∀ z' a t, Persist z z' → fits z' a → Sound z' t.shared → EndsSafely z' t (f a t)) :
    ∃ z' t, Persist z z' ∧ EndsSafely z' t ((Engine.resolve resolver >>= f) s) := by
  obtain ⟨a, m, made, cells, persist, fit⟩ := resolves s.shared.memory (sound.statics ▸ .refl _)
  have persist : Persist z m.statics := sound.statics ▸ persist
  let t : State := { s with shared.memory := m }
  have resolved : (Engine.resolve resolver >>= f) s = f a t := by
    simp only [Engine.resolve, Bind.bind, EStateM.bind, Eval.read, made]
    rfl
  refine ⟨m.statics, t, persist, ?_⟩
  rw [resolved]
  exact rest m.statics a t persist fit (sound.persist cells persist)

theorem Resolves.resolveIn {z : Array StaticScope} {names : Session.Names} {body : Source}
    {vars : List String} {scope : Option String} {size : Nat}
    (known : ∀ id, scope.bind names.scopes.get? = some id → (sizing z).method id = some size)
    (fresh : scope.bind names.scopes.get? = none → vars.length = size)
    (fits : body.isScoped ScopeDecl.sizing [size]) :
    Resolves z (Session.resolveIn names body vars scope) fun z' made =>
      (sizing z').method made.1 = some size ∧ made.2.isScoped (sizing z') [size] := by
  have first : Resolves z (names.scope vars scope)
      fun z' id => (sizing z').method id = some size := by
    unfold Session.Names.scope
    split
    · next id named => exact .pure fun z' persist => persist.sizing.method (known id named)
    · next unnamed => exact fresh unnamed ▸ .enter { vars }
  refine first.bind fun z' id _ known => (body.resolve_scoped z' id fits).bind
    fun _ node persist inBody => .pure fun _ later => ?_
  exact ⟨(persist.trans later).sizing.method known, Tree.isScoped_mono later.sizing node inBody⟩

namespace Session

theorem answerOf_fault {session : Session} {context : Context} {result : Except Halt Finding}
    {fault : Fault} (answered : session.answerOf context result = .fault fault) :
    result = .error (.fault fault) := by
  cases result with
  | ok finding => cases finding <;> cases answered
  | error halt =>
    cases halt with
    | fault => cases answered; rfl
    | signal | exhausted => cases answered

namespace Fits

variable {named : Table Nat} {session : Session}

theorem known (fits : Fits named session) {name : String} {id : StaticId}
    (found : session.names.scopes.get? name = some id) :
    ∃ size, named.get? name = some size ∧
      (sizing session.shared.memory.statics).method id = some size := by
  have same := fits.scopes name
  rw [found, Option.map_some] at same
  obtain ⟨size, here, is⟩ := Option.map_eq_some_iff.1 same.symm
  exact ⟨size, here, is.symm⟩

theorem unknown (fits : Fits named session) {name : String}
    (new : session.names.scopes.get? name = none) : named.get? name = none := by
  have same := fits.scopes name
  rw [new, Option.map_none] at same
  exact Option.map_eq_none_iff.1 same.symm

/-- Scopes keep their sizes, whatever else happens. -/
theorem later {other : Session} (fits : Fits named session)
    (persist : Persist session.shared.memory.statics other.shared.memory.statics)
    (sound : Sound other.shared.memory.statics other.shared)
    (names : other.names.scopes = session.names.scopes) : Fits named other := by
  refine ⟨sound, fun name => ?_⟩
  rw [names]
  cases found : session.names.scopes.get? name with
  | none => rw [fits.unknown found, Option.map_none, Option.map_none]
  | some id =>
    obtain ⟨size, here, known⟩ := fits.known found
    rw [here, Option.map_some, Option.map_some, persist.sizing.method known]

theorem name (fits : Fits named session) (name : String) {id : StaticId} {size : Nat}
    (known : (sizing session.shared.memory.statics).method id = some size) :
    Fits (named.insert name size)
      { session with names.scopes := session.names.scopes.insert name id } := by
  refine ⟨fits.sound, fun other => ?_⟩
  simp only [Table.get?_insert]
  split
  · rw [Option.map_some, Option.map_some, known]
  · exact fits.scopes other

theorem nameScope (fits : Fits named session) (body : Source) (vars : List String)
    (scope : Option String) :
    Fits (scope.elim named (named.insert · ((scope.bind named.get?).getD vars.length)))
      (session.nameScope (.run body vars scope)) := by
  cases scope with
  | none => exact fits
  | some name =>
    simp only [Session.nameScope, Option.elim_some, Option.bind_some]
    cases found : session.names.scopes.get? name with
    | some id =>
      obtain ⟨size, here, -⟩ := fits.known found
      refine ⟨fits.sound, fun other => ?_⟩
      rw [fits.scopes other, here, Option.getD_some, Table.get?_insert]
      split
      · next same => rw [← same, here]
      · rfl
    | none =>
      rw [fits.unknown found, Option.getD_none]
      have persist := Persist.push session.shared.memory.statics { vars }
      have more : Fits named { session with
          shared.memory := (session.shared.memory.addStatic { vars }).2 } :=
        fits.later persist (fits.sound.persist rfl persist) rfl
      exact more.name name (StaticScope.size_push _ _)

/-- By the time that a tree runs in a scope with a name, the scope is there. -/
theorem scope {scope : Option String} {size : Nat}
    (fits : Fits (scope.elim named (named.insert · size)) session) :
    (∀ id, scope.bind session.names.scopes.get? = some id →
      (sizing session.shared.memory.statics).method id = some size) ∧
    (scope.bind session.names.scopes.get? = none → scope = none) := by
  cases scope with
  | none => exact ⟨fun _ => nofun, fun _ => rfl⟩
  | some name =>
    have here : (named.insert name size).get? name = some size := by simp
    constructor
    · intro id found
      obtain ⟨own, is, known⟩ := fits.known found
      obtain rfl : size = own := Option.some.inj (here.symm.trans is)
      exact known
    · intro new
      cases here.symm.trans (fits.unknown new)

theorem inContext {α : Type} (fits : Fits named session) (context : ContextId) {body : Eval α}
    {z : Array StaticScope} {t : State} (persist : Persist session.shared.memory.statics z)
    (ends : EndsSafely z t (body ⟨session.shared, session.contexts.getD context default⟩)) :
    Fits named (session.inContext context body).2 ∧
      ∀ fault, (session.inContext context body).1 ≠ .error (.fault fault) := by
  have goes (s : State) (later : Later z t s) (contexts : List Context) :
      Fits named { session with shared := s.shared, contexts } :=
    fits.later (later.sound.statics ▸ persist) (later.sound.statics.symm ▸ later.sound) rfl
  unfold Session.inContext
  dsimp only
  cases result : body ⟨session.shared, session.contexts.getD context default⟩ with
  | ok a s =>
    rw [result] at ends
    exact ⟨goes s ends _, fun _ => nofun⟩
  | error halt s =>
    rw [result] at ends
    cases halt with
    | signal | exhausted => exact ⟨goes s ends _, fun _ => nofun⟩
    | fault => exact ends.elim

theorem keep (fits : Fits named session) (register : Option String) (result : Except Halt Finding) :
    Fits named (session.keep register result) := by
  unfold Session.keep
  split
  · split
    · exact ⟨fits.sound, fits.scopes⟩
    · exact fits
  · exact fits

theorem stepped (step : Step) (fits : Fits named (session.nameScope step.command)) (fuel : Nat)
    {z : Array StaticScope} {t : State}
    (persist : Persist (session.nameScope step.command).shared.memory.statics z)
    (ends : EndsSafely z t (perform fuel (session.nameScope step.command).names step.command
      ⟨(session.nameScope step.command).shared,
        (session.nameScope step.command).contexts.getD step.context default⟩)) :
    Fits named (session.step fuel step).2 ∧
      ∀ fault, (session.step fuel step).1.answer ≠ .fault fault := by
  obtain ⟨after, never⟩ := fits.inContext step.context persist ends
  exact ⟨after.keep _ _, fun fault answered => never fault (answerOf_fault answered)⟩

theorem step (fits : Fits named session) (fuel : Nat) {step : Step} {named' : Table Nat}
    (sizes : step.command.sizes? named = some named') :
    Fits named' (session.step fuel step).2 ∧
      ∀ fault, (session.step fuel step).1.answer ≠ .fault fault := by
  obtain ⟨command, context, register⟩ := step
  cases command with
  | run body vars scope =>
    simp only [Command.sizes?, Option.ite_none_right_eq_some, Option.some.injEq] at sizes
    obtain ⟨inBody, rfl⟩ := sizes
    have fits := fits.nameScope body vars scope
    obtain ⟨known, new⟩ := fits.scope
    have resolves := Resolves.resolveIn known (fun unnamed => by rw [new unnamed]; rfl) inBody
    obtain ⟨z, t, persist, ends⟩ := EndsSafely.resolve resolves fits.sound
      (s := ⟨_, (session.nameScope (.run body vars scope)).contexts.getD context default⟩)
      fun z' made t _ inScope sound =>
        (EndsSafely.toplevel sound fuel inScope.1 inScope.2).surfaced
    refine stepped ⟨.run body vars scope, context, register⟩ fits fuel persist (t := t) ?_
    exact ends.bind fun _ _ later => Later.refl later.sound
  | interrupt | addHook | removeHook =>
    cases sizes
    exact stepped ⟨_, context, register⟩ fits fuel (.refl _) (t := ⟨session.shared, _⟩)
      ⟨fits.sound.of_eq rfl rfl rfl rfl rfl, .refl _, .refl _⟩
  | _ => cases sizes

theorem run (fits : Fits named session) (fuel : Nat) {steps : List Step}
    (inScope : scopedRuns named steps) :
    ∀ reply ∈ session.run fuel steps, ∀ fault, reply.answer ≠ .fault fault := by
  -- Each step leaves the session fit for the next one, under sizes that the command tells.
  induction steps generalizing named session with
  | nil =>
    intro reply member
    cases member
  | cons first rest ih =>
    simp only [scopedRuns, Option.any_eq_true] at inScope
    obtain ⟨named', sizes, inScope⟩ := inScope
    obtain ⟨after, never⟩ := fits.step fuel sizes
    intro reply member
    simp only [Session.run, List.mem_cons] at member
    rcases member with rfl | member
    · exact never
    · exact ih after inScope reply member

theorem addContexts (fits : Fits named session) (count : Nat) :
    Fits named (session.addContexts count) := by
  refine addContexts_keeps (fun session fits => ?_) fits count
  let m := session.shared.memory
  let more := (m.addStatic {}).2
  have persist : Persist m.statics more.statics := .push m.statics {}
  have wider : Sound more.statics { session.shared with memory := more } :=
    fits.sound.persist rfl persist
  have sound := wider.memory (more.grows_allocate m.statics.size [])
    (wider.stored.allocate [] (StaticScope.size_push m.statics {})) rfl
  exact fits.later persist (sound.of_eq rfl rfl rfl rfl rfl) rfl

end Fits

end Session

namespace Sound

variable {z : Array StaticScope} {shared : Shared}

theorem install (sound : Sound z shared) (entry : Core.Entry) : Sound z (shared.install entry) where
  statics := sound.statics
  stored := sound.stored
  closures := sound.closures
  methods id := by
    change ((shared.library.addMethod _).2.method id).Scoped z
    rw [Library.method_addMethod]
    split
    · trivial
    · exact sound.methods id
  faithful := Shared.install_faithful sound.faithful entry

theorem start {backend : Backend} (faithful : backend.Faithful) (config : Config)
    (hooks : List Hook) (firstTarget : Nat) :
    Sound #[] (Shared.start config backend hooks firstTarget) := by
  let bare := Shared.withCoreClasses { config, backend, nextTarget := firstTarget }
  have before : Sound #[] bare :=
    ⟨rfl, fun _ inside => absurd inside (Nat.not_lt_zero _), fun _ _ => nofun, fun _ => trivial,
      fun _ => faithful, fun _ => Method.faithful_of_plain rfl⟩
  have core : Sound #[] bare.withCoreMethods :=
    List.foldlRecOn Core.methods Shared.install before fun _ sound entry _ => sound.install entry
  exact core.of_eq rfl rfl rfl rfl rfl

end Sound

/-- Whatever is compiled, however often hooks change or runs are interrupted, and in whichever
contexts: trees that fit their scopes never fault. -/
theorem scoped_runs_never_fault {backend : Backend} (faithful : backend.Faithful) (config : Config)
    (tellsCompiles : Bool) (hooks : List Hook) (contexts firstTarget fuel : Nat)
    {steps : List Session.Step} (inScope : Session.scopedRuns {} steps) :
    let session := Session.start config backend tellsCompiles hooks contexts firstTarget
    ∀ reply ∈ session.run fuel steps, ∀ fault, reply.answer ≠ .fault fault := by
  have sound := Sound.start faithful config hooks firstTarget
  have fits : Session.Fits {}
      ⟨Shared.start config backend hooks firstTarget, [], {}, tellsCompiles⟩ :=
    ⟨sound.statics.symm ▸ sound, fun _ => by simp [Table.get?]⟩
  exact (fits.addContexts contexts).run fuel inScope

/-- A closure that outlives the call that made it, and a scope that is used again. -/
theorem scoped_runs_never_fault_adder :
    let sum : Source := .binary .add (.localGet 0 0) (.localGet 0 1)
    let params : ClosureParams := { strategy := .whole, slots := [0] }
    let lambda : Source := .makeLambda ⟨{ vars := ["x"] }, params, sum⟩
    let define : Source :=
      .define "adder" { vars := ["n"], layout := .exactly 1 } { required := 1 } lambda
    let make : Source := .localSet 0 0 (.call none "adder" [.int 1] .absent)
    let apply : Source := .call (some (.localGet 0 0)) "call" [.int 2] .absent
    let steps : List Session.Step :=
      [{ command := .run (.seq [define, make, apply]) ["f"] (some "main") },
       { command := .run (.seq [make, apply]) [] (some "main") }]
    let replies := (Session.start {} .lowering true [] 1 1).run 9 steps
    let texts := replies.map fun reply => match reply.answer with
      | .ending (.value value) => value.text
      | _ => ""
    texts = ["3", "3"] ∧ ∀ reply ∈ replies, ∀ fault, reply.answer ≠ .fault fault := by
  intro sum params lambda define make apply steps replies texts
  have inScope : Session.scopedRuns {} steps := by decide +kernel
  exact ⟨by decide +kernel,
    scoped_runs_never_fault Backend.lowering_faithful {} true [] 1 1 9 inScope⟩

-- A tree that does not fit its scope can fault.
example : ((Session.start {} .lowering true [] 1 1).run 1
    [{ command := .run (.localGet 0 0) [] none }]).map (·.answer matches .fault .noVariables) =
      [true] := by
  decide +kernel

end CallEngine
