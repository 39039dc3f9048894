import CallEngine.Proofs.ClosureReturns
import CallEngine.Proofs.Ownership
/-! Super calls go up. Methods belong to the classes that have them, so each super call starts above the
class that the one before it found. -/
namespace CallEngine
open Eval

/-- The frames of activations of a class's methods, and of the closures made under them. -/
inductive Frame.Under (owner : ClassId) (name : String) : Frame → Prop where
  | activation {m : Method} {call : Call} {frame : Frame} : m.owner = owner → call.name = name →
    frame ∈ m.config.frames (m.invocation call) → frame.name = some name → Under owner name frame
  | visibility {frame : Frame} (visibility : Visibility) : Under owner name frame →
    Under owner name { frame with visibility }
  | closure {frame : Frame} {body : ClosureBody} {kind : ClosureKind} {s t : State}
    {id : ClosureId} {delivery : Delivery} : Under owner name frame →
      s.context.stack.current = .ok frame → makeClosure body kind s = .ok id t →
        delivery.cls = none → Under owner name ((t.shared.closure id).frame delivery)

theorem CallConfig.cls_of_mem {config : CallConfig} {call : Invocation} {owner : ClassId}
    {frame : Frame} (owned : call.owner = some owner) (member : frame ∈ config.frames call) :
    frame.cls = some owner := by
  simp only [frames, owned] at member
  split at member
  · cases member
  · next same =>
    cases same
    rcases List.mem_cons.1 member with rfl | inner
    · rfl
    · cases List.mem_singleton.1 inner
      rfl
  · cases List.mem_singleton.1 member
    rfl

/-- Wherever closures take it, the class of the frame stays that of the method. -/
theorem Frame.Under.names {owner : ClassId} {name : String} {frame : Frame}
    (under : frame.Under owner name) : frame.cls = some owner ∧ frame.name = some name := by
  induction under with
  | @activation m call frame owned _ member named =>
    exact ⟨CallConfig.cls_of_mem (congrArg some owned) member, named⟩
  | visibility _ _ ih => exact ih
  | closure _ current made noClass ih =>
    obtain ⟨found, env, current', own, -⟩ := makeClosure_ok made
    cases current.symm.trans current'
    obtain ⟨cls, named⟩ := ih
    rw [own]
    simp only [Closure.frame, Shared.made, noClass]
    split <;> exact ⟨cls, named⟩

/-- A super call in a method of `owner` takes the first definition above it, and fails if there is
none. -/
theorem Eval.superCall_under {w : State} {frame : Frame} {owner : ClassId} {name : String}
    (current : w.context.stack.current = .ok frame) (under : frame.Under owner name) {env : Env}
    {outer : List Env} (scopes : w.context.scopes = env :: outer) (ask : Responder) :
    superCall ask w = match w.shared.library.searchAbove owner name with
      | none => .error (.signal (.error (.noSuperMethod name))) w
      | some id => ask (.invoke id ⟨frame.self, name, w.shared.memory.arguments env, frame.block⟩)
          { w with context.lastCall := .super } := by
  obtain ⟨cls, named⟩ := under.names
  unfold superCall
  rw [bind_ok (currentFrame_ok current)]
  simp only [cls, named]
  rw [bind_ok (currentEnv_cons scopes)]
  cases found : w.shared.library.searchAbove owner name <;>
    simp only [Bind.bind, EStateM.bind, Eval.read, found] <;> rfl

/-- What a super call asks for. -/
theorem Asks.above {ask : Responder} {w u : State} {request : Request}
    (asked : Asks superCall ask w request u) {frame : Frame} {owner : ClassId} {name : String}
    (current : w.context.stack.current = .ok frame) (under : frame.Under owner name) :
    u.shared = w.shared ∧ ∃ id call, request = .invoke id call ∧ call.name = name ∧
      w.shared.library.searchAbove owner name = some id := by
  obtain ⟨fault, differ⟩ := asked.differs
  cases scopes : w.context.scopes with
  | nil =>
    have stuck (ask : Responder) : superCall ask w = .error (.fault .noScope) w := by
      obtain ⟨cls, named⟩ := under.names
      unfold superCall
      rw [bind_ok (currentFrame_ok current)]
      simp only [cls, named]
      rw [bind_error (currentEnv_nil scopes)]
    rw [stuck, stuck] at differ
    exact absurd rfl differ
  | cons env outer =>
    rw [superCall_under current under scopes, superCall_under current under scopes] at differ
    cases found : w.shared.library.searchAbove owner name with
    | none =>
      rw [found] at differ
      exact absurd rfl differ
    | some id =>
      rw [found] at differ
      dsimp only at differ
      by_cases hit : Request.invoke id ⟨frame.self, name, w.shared.memory.arguments env, frame.block⟩ =
          request ∧ { w with context.lastCall := .super : State } = u
      · obtain ⟨rfl, rfl⟩ := hit
        exact ⟨rfl, id, _, rfl, rfl, rfl⟩
      · exact absurd (cutAt_other hit).symm differ

/-- A nest of super calls and the owners of their methods, outermost first. The body of each method, or
a closure that was made in it, makes the next super call in the course of its run. -/
inductive Nest : Nat → MethodId → Call → State → List ClassId → State → Prop where
  | last (fuel : Nat) (id : MethodId) (call : Call) (s : State) :
    Nest fuel id call s [(s.shared.library.method id).owner] s
  | super {fuel bound : Nat} {id next : MethodId} {call inner : Call} {s t w u v : State}
    {request : Request} {frame : Frame} {owners : List ClassId} :
    Leads (fun _ _ => True) fuel (.invoke id call) s (bound + 1) request t →
    Asks (fun ask => respond bound ask request) (answer bound) t (.invoke next inner) u →
    w.context.stack.current = .ok frame →
    frame.Under (s.shared.library.method id).owner call.name →
    Asks superCall (answer bound) w (.invoke next inner) u →
    Nest bound next inner u owners v →
    Nest fuel id call s ((s.shared.library.method id).owner :: owners) v

/-- The owners are among the classes of the line, in their order. -/
theorem Nest.sublist {first : Nat} (positive : 0 < first) {fuel : Nat} {id : MethodId} {call : Call}
    {s v : State} {owners : List ClassId} (nest : Nest fuel id call s owners v)
    (numbered : s.Numbered first) (tidy : s.shared.library.Tidy) :
    s.shared.library.Grows v.shared.library ∧ v.shared.library.Tidy ∧
      owners.Sublist (v.shared.library.ancestors (s.shared.library.method id).owner) := by
  induction nest with
  | last fuel id call s => exact ⟨.refl _, tidy, .cons_cons _ (List.nil_sublist _)⟩
  | @super fuel bound id next call inner s t w u v request frame owners path asked current under
      climbs nest ih =>
    have kept := Mirror.owning_kept s.shared.library positive
    have reached := kept.leads rfl path (Mirror.Proper.owning numbered tidy)
    have later := kept.asked rfl (fun asks => kept.respond asks bound request) asked reached
    obtain ⟨tidy', grows⟩ := later.tidy
    obtain ⟨grows', tidy'', inner_le⟩ := ih later.toNumbered tidy'
    obtain ⟨same, _, _, ⟨⟩, -, found⟩ := climbs.above current under
    rw [← same] at found
    obtain ⟨below, owner, above, line, -, own⟩ := Library.searchAbove_eq_some.1 found
    obtain ⟨-, owned⟩ := tidy'.owns owner call.name next (.inl own)
    -- The class has others above it, so it is there and keeps its line.
    have inside : (s.shared.library.method id).owner < u.shared.library.classes.size := by
      refine Nat.lt_of_not_le fun outside => ?_
      rw [Library.lineage_outside outside] at line
      simp at line
    have line' := (grows'.lineage _ inside).trans line
    have member : owner ∈ (v.shared.library.cls (s.shared.library.method id).owner).lineage := by
      simp [line']
    refine ⟨grows.trans grows', tidy'', .cons_cons _ ?_⟩
    rw [owned] at inner_le
    exact inner_le.trans (tidy''.ancestors_suffix member).2.sublist

section points

/-- A point's `m` calls the one of all objects, from a block that it gives to a loop. -/
def Library.points : Library where
  classes := #[
    { name := "Object", methods := (Table.insert {} "loop" 0).insert "m" 1 },
    { name := "Point", lineage := [Core.object], methods := Table.insert {} "m" 2 }]
  methods := #[
    ⟨Core.object, .priv, .frameOnly, ⟨1⟩, .builtin .loop⟩,
    ⟨Core.object, .pub, .frameAndScope, ⟨2⟩, .interpreted ⟨0, {}, .nil⟩ {}⟩,
    ⟨1, .pub, .frameAndScope, ⟨3⟩,
      .interpreted ⟨0, {}, .call none "loop" [] (.literal ⟨0, {}, .superCall⟩)⟩ {}⟩]

def State.points : State :=
  ⟨{ library := .points, nextTarget := 4 },
    { id := 0, main := ⟨0, 0⟩, scopes := [[]], stack := .ofRoot { self := .object ⟨0, 0⟩ } none }⟩

theorem Library.points_tidy : points.Tidy := by
  refine ⟨⟨by decide +kernel, fun name id named => ?_, by decide⟩, .of_entries (by decide +kernel)⟩
  simp [points] at named

theorem State.points_numbered : points.Numbered 1 :=
  ⟨⟨by decide +kernel, by decide +kernel, by decide⟩, by decide +kernel⟩

/-- What is done with the outcome of a body that redo runs again. -/
def redone (again : Eval Outcome) : Outcome → Eval Outcome
  | .error .redo => poll >>= fun _ => again
  | outcome => pure outcome

theorem Nest.points :
    ∃ v, Nest 5 2 ⟨.object ⟨1, 1⟩, "m", [], none⟩ State.points [1, Core.object] v := by
  let literal : Literal StaticId Node := ⟨0, {}, .superCall⟩
  let point : ClassId := 1
  let s := State.points
  let call : Call := ⟨.object ⟨1, point⟩, "m", [], none⟩
  -- Inside the method, before and after the block is made.
  let inside : Frame :=
    { self := .object ⟨1, point⟩, cls := some point, name := some "m",
      jumpTarget := some ⟨3⟩, activation := some ⟨3⟩ }
  let promoted := (s.promote 2 "m").2
  let entered := finalState (enterScope 0 [] (promoted.pushed (promoted.context.stack.add inside)))
  let before : State := { entered with context.scopes := [0] :: entered.context.scopes }
  let made := finalState (makeClosure (.literal literal) .normal before)
  let looped : Call := ⟨.object ⟨1, point⟩, "loop", [], some 0⟩
  let t₁ := finalState (setLastCall .functional (made.enterLive ⟨4⟩))
  let t₂ := t₁.pushed (t₁.context.stack.add
    { self := .object ⟨1, point⟩, cls := some Core.object, name := some "loop", block := some 0 })
  -- Inside the block.
  let frame := (t₂.shared.closure 0).frame { value := .nil }
  let entered' := finalState (enterScope 0 [0] t₂)
  let w := entered'.pushed (entered'.context.stack.add frame)
  let w : State := { w with context.scopes := [1, 0] :: w.context.scopes }
  let up : Call := ⟨.object ⟨1, point⟩, "m", [], none⟩
  let u : State := { w with context.lastCall := .super }
  have first : Asks (fun ask => respond 4 ask (.invoke 2 call)) (answer 4) s
      (.invoke 0 looped) t₁ :=
    .of_run (fun _ result => ensuring (ensuring (observe
      (whileLive ⟨4⟩ (fun _ => result) >>= fun outcome => ofOutcome (outcome.atLiteral ⟨4⟩)) >>=
        fun outcome => read (fun s => (outcome.atMethod ⟨3⟩).traced s.context.stack) >>= ofOutcome)
        State.popScope) State.popFrame made) (fun _ => rfl) fun _ _ => ⟨_, rfl⟩
  have second : Asks (fun ask => respond 3 ask (.invoke 0 looped)) (answer 3) t₁
      (.yield 0 { value := .nil }) t₂ :=
    .of_run (fun ask result => ensuring ((fun _ => result) >>= fun _ => yieldForever ask 0 2)
      State.popFrame t₁) (fun _ => rfl) fun _ _ => ⟨_, rfl⟩
  have third : Asks (fun ask => respond 2 ask (.yield 0 { value := .nil })) (answer 2) t₂
      (.invoke 1 up) u :=
    .of_run (fun ask result => ensuring (ensuring ((observe (fun _ => result) >>=
      redone (redoing (literal.body.eval 2 ask) 1)) >>= fun outcome =>
        ofOutcome (outcome.atClosure ⟨4⟩ .normal)) State.popScope) State.popFrame entered')
      (fun _ => rfl) fun _ _ => ⟨_, rfl⟩
  have asked : Asks superCall (answer 2) w (.invoke 1 up) u :=
    .of_run (fun _ result => result) (fun _ => rfl) fun _ _ => ⟨_, rfl⟩
  have under : frame.Under point "m" := by
    have member : inside ∈ (s.shared.library.method 2).config.frames
        ((s.shared.library.method 2).invocation call) := List.mem_singleton.2 rfl
    have activation : inside.Under point "m" := .activation rfl rfl member rfl
    exact .closure activation (s := before) (t := made) rfl rfl rfl
  exact ⟨u, .super (.step trivial first (.step trivial second (.refl ..))) third rfl under asked
    (.last ..)⟩

end points

/-- Methods belong to the classes that have them, unless the host gives a class a method of another one.
So a super call in a method, or in closures that were made in it, takes the first definition strictly
above the class of the method and fails if there is none, and nests of super calls go up the line of the
first method's class. -/
theorem super_climbs (config : Config) (backend : Backend) (tellsCompiles : Bool)
    (hooks : List Hook) (contexts fuel : Nat) {firstTarget : Nat} (positive : 0 < firstTarget)
    {steps : List Session.Step} (scripted : ∀ step ∈ steps, ¬step.command.sharesMethod)
    (id : ContextId) :
    let later :=
      (Session.start config backend tellsCompiles hooks contexts firstTarget).after fuel steps
    let s : State := ⟨later.shared, later.contexts.getD id default⟩
    (s.Numbered firstTarget ∧ s.shared.library.Tidy ∧
      ∀ scope (node : Node) last request t,
        During (fun ask => Engine.toplevelOf scope (node.eval fuel ask)) fuel s last request t →
          t.Numbered firstTarget ∧ t.shared.library.Tidy) ∧
    (∀ w frame owner name env outer ask, w.context.stack.current = .ok frame →
      frame.Under owner name → w.context.scopes = env :: outer →
        let library := w.shared.library
        let line := (library.cls owner).lineage
        (∀ other ∈ line, library.ownMethod other name = none) ∧
            superCall ask w = .error (.signal (.error (.noSuperMethod name))) w ∨
          ∃ below found above method, line = below ++ found :: above ∧
            (∀ other ∈ below, library.ownMethod other name = none) ∧
            library.ownMethod found name = some method ∧
            superCall ask w =
              ask (.invoke method ⟨frame.self, name, w.shared.memory.arguments env, frame.block⟩)
                { w with context.lastCall := .super }) ∧
    ∀ t : State, t.Numbered firstTarget → t.shared.library.Tidy →
      ∀ last method call owners v, Nest last method call t owners v →
        let library := v.shared.library
        owners.Pairwise (fun below above => above ∈ (library.cls below).lineage) ∧
          owners.Nodup ∧
          owners.length ≤ (library.ancestors (t.shared.library.method method).owner).length := by
  intro later s
  have kept := Mirror.owning_kept {} positive
  have core : (Mirror.owning {} firstTarget).tidy ({} : Shared).withCoreClasses.library :=
    ⟨Library.tidy_core, .of_empty _⟩
  obtain ⟨-, settled⟩ := kept.start_renamed core config backend tellsCompiles hooks contexts
  obtain ⟨-, -, settled⟩ :=
    kept.run_renamed settled fuel steps fun step member shares => scripted step member shares
  have proper := settled.state id
  refine ⟨⟨proper.toNumbered, proper.tidy.1, fun scope node last request t reached => ?_⟩,
    fun w frame owner name env outer ask current under scopes => ?_,
    fun t numbered tidy last method call owners v nest => ?_⟩
  · have follows : (Mirror.owning {} firstTarget).Follows fun ask =>
        Engine.toplevelOf scope (node.eval fuel ask) :=
      fun asks => Mirror.IsKept.toplevelOf scope (kept.eval asks fuel node)
    have proper := kept.during rfl follows reached proper
    exact ⟨proper.toNumbered, proper.tidy.1⟩
  · have runs := superCall_under current under scopes ask
    dsimp only
    cases above : w.shared.library.searchAbove owner name with
    | none =>
      rw [above] at runs
      exact .inl ⟨Library.searchAbove_eq_none.1 above, runs⟩
    | some method =>
      rw [above] at runs
      obtain ⟨below, found, rest, line, none, own⟩ := Library.searchAbove_eq_some.1 above
      exact .inr ⟨below, found, rest, method, line, none, own, runs⟩
  · obtain ⟨-, tidy', sublist⟩ := nest.sublist positive numbered tidy
    exact ⟨(tidy'.ancestors_ascend _).sublist sublist, sublist.nodup (tidy'.ancestors_nodup _),
      sublist.length_le⟩

/-- A class under that of all objects, made by a script, and a nest of two calls. -/
theorem super_climbs_point :
    let script : Source := .seq
      [.define "m" {} {} .nil, .classBody "Point" none false {} (.define "m" {} {} .superCall)]
    let later := (Session.start {} .lowering true [] 1 1).after 9 [{ command := .run script [] none }]
    (later.shared.library.ownMethod 9 "m" = some 14 ∧ later.shared.library.OwnsTables) ∧
      ∃ v, Nest 5 2 ⟨.object ⟨1, 1⟩, "m", [], none⟩ State.points [1, Core.object] v ∧
        [1, Core.object].Pairwise fun below above => above ∈ (v.shared.library.cls below).lineage := by
  intro script
  dsimp only
  obtain ⟨v, nest⟩ := Nest.points
  have scripted : ∀ step ∈ [{ command := .run script [] none : Session.Step }],
      ¬step.command.sharesMethod := by simp [Session.Command.sharesMethod]
  have climbs := super_climbs {} .lowering true [] 1 9 Nat.one_pos scripted 0
  have ascending :=
    (climbs.2.2 _ State.points_numbered Library.points_tidy _ _ _ _ _ nest).1
  have tidy := climbs.1.2.1
  dsimp only at tidy
  exact ⟨⟨by decide +kernel, tidy.owns⟩, v, nest, ascending⟩

end CallEngine
