import CallEngine.Proofs.ClosureReturns
import CallEngine.Proofs.Reissues
/-! What a call computes after a change of who may make it.

The change gives the class a copy of the method under an identity of its own. Calls do not show it unless
the copy is told from the original: by the callers that are let through, by returns that outlive the one
or the other, by a super call that runs the original after the copy, by what they define, or by a look-up
after another method came between the class and the original. -/
namespace CallEngine
open Eval

/-- What a run shows when it has ended: its value, or why there is none, and the globals. What a return
is aimed at is not shown. -/
def Eval.shown {α : Type} : EStateM.Result Halt State α → Except Halt α × Table Value
  | .ok a s => (.ok a, s.context.globals)
  | .error halt s => (.error (halt.renamed fun _ => ⟨0⟩), s.context.globals)

theorem Recasting.Ends.shown {c : Recasting} {outer : List Frame × List Frame}
    {left right : EStateM.Result Halt State Value} (ends : c.Ends (c.States outer) Eq left right)
    (heeded : ∀ t, right ≠ .error (.fault c.precaution.fault) t) : Eval.shown left = Eval.shown right := by
  cases ends with
  | ok same states => simp only [Eval.shown, same, states.globals]
  | error halt states =>
    simp only [Eval.shown, states.globals, Halt.renamed_renamed]
    rfl
  | barred t => exact absurd rfl (heeded t)

namespace Reissue

/-- With the copy, nothing is done that tells it from the original. -/
def Undisturbed (r : Reissue) (fault : Fault) (lambdas : Target → Bool) (fuel : Nat) (act : Act)
    (context : Context) : Prop :=
  let precaution := r.precaution fault lambdas
  ∀ t, precaution.perform (precaution.answer fuel) act ⟨r.after, context⟩ ≠ .error (.fault fault) t

/-- The changes that a list of names makes, one after another. -/
def chain (cls : ClassId) (visibility : Visibility) : List Value → State → List Reissue
  | [], _ => []
  | value :: rest, s =>
    let name := (s.view value).text
    match s.shared.library.searchMethod cls name with
    | none => []
    | some source =>
      let r : Reissue := ⟨s.shared, cls, name, source, visibility⟩
      r :: chain cls visibility rest ⟨r.after, s.context⟩

variable {r : Reissue} {first : Nat}

theorem IsSound.shown (sound : r.IsSound first) {context : Context}
    (gave : r.shared.Gave first context.identities) {fault : Fault} {lambdas : Target → Bool} {fuel : Nat}
    {act : Act} (undisturbed : r.Undisturbed fault lambdas fuel act context) :
    shown (act.perform (answer fuel) ⟨r.shared, context⟩) =
      shown (act.perform (answer fuel) ⟨r.after, context⟩) := by
  have runs {c : Recasting} (kept : c.IsKept) (careful : c.IsCareful) :=
    Recasting.performs kept careful (Recasting.answer kept careful fuel) act
  have states : (r.restored fault lambdas).States _ _ _ := sound.restored_states gave
  have left := runs sound.restored_kept sound.restored_careful _ _ _ states
  have states' : (r.reflexive fault lambdas).States _ _ _ := sound.reflexive_states context
  have right := runs (reflexive_kept sound) reflexive_careful _ _ _ states'
  exact (left.shown undisturbed).trans (right.shown undisturbed).symm

theorem gave_after {context : Context} (gave : r.shared.Gave first context.identities) :
    r.after.Gave first context.identities :=
  gave.mono (Nat.le_succ _)

end Reissue

section changes

variable {cls : ClassId} {visibility : Visibility} (plain : visibility ≠ .moduleFunction)
include plain

/-- The class gets its own copy of the method, and nothing else happens. -/
theorem Eval.changeVisibility_found {name : String} {source : MethodId} {s : State}
    (found : s.shared.library.searchMethod cls name = some source) :
    changeVisibility cls visibility name s =
      .ok () ⟨(Reissue.mk s.shared cls name source visibility).after, s.context⟩ := by
  unfold changeVisibility
  rw [bind_ok (x := Eval.read (·.shared.library.searchMethod cls name)) rfl]
  simp only [found, plain]
  rfl

omit plain in
theorem Eval.changeVisibility_missing {name : String} {s : State}
    (missing : s.shared.library.searchMethod cls name = none) :
    changeVisibility cls visibility name s =
      .error (.signal (.error (.noMethod s.directory name (.cls cls)))) s := by
  unfold changeVisibility
  rw [bind_ok (x := Eval.read (·.shared.library.searchMethod cls name)) rfl]
  simp only [missing]
  rfl

/-- One change after another. -/
theorem Eval.changeAll_shown {first : Nat} (positive : 0 < first) {names : List Value} {s t : State}
    (changed : changeAll cls visibility names s = .ok () t) (coherent : s.shared.Coherent first)
    {context : Context} (gave : s.shared.Gave first context.identities) {fuel : Nat} {receiver : Value}
    {name : String} {args : List Value} {block : Option ClosureId}
    (undisturbed : ∀ r ∈ Reissue.chain cls visibility names s, ∃ fault lambdas,
      r.Undisturbed fault lambdas fuel (.call receiver name args block .functional) context) :
    shown (callMethod (answer fuel) receiver name args block .functional ⟨s.shared, context⟩) =
      shown (callMethod (answer fuel) receiver name args block .functional ⟨t.shared, context⟩) := by
  induction names generalizing s with
  | nil =>
    cases changed
    rfl
  | cons value rest ih =>
    have step : changeAll cls visibility (value :: rest) s =
        (changeVisibility cls visibility (s.view value).text >>= fun _ => changeAll cls visibility rest) s :=
      rfl
    rw [step] at changed
    cases found : s.shared.library.searchMethod cls (s.view value).text with
    | none =>
      rw [bind_error (changeVisibility_missing found)] at changed
      cases changed
    | some source =>
      rw [bind_ok (changeVisibility_found plain found)] at changed
      simp only [Reissue.chain, found, List.mem_cons, forall_eq_or_imp] at undisturbed
      obtain ⟨⟨fault, lambdas, own⟩, later⟩ := undisturbed
      let r : Reissue := ⟨s.shared, cls, (s.view value).text, source, visibility⟩
      have sound : r.IsSound first := ⟨positive, coherent, found⟩
      have same := sound.shown gave own
      have goesOn : changeAll cls visibility rest ⟨r.after, s.context⟩ = .ok () t := changed
      have keeps : r.after.Coherent first := sound.keeps
      have gave : r.after.Gave first context.identities := r.gave_after gave
      exact same.trans (@ih ⟨r.after, s.context⟩ goesOn keeps gave later)

end changes

/-- After a change of who may call them, calls of methods show what they would have shown without it,
unless they are disturbed by the copies that the change made. -/
theorem Eval.visibility_change_not_shown {first : Nat} (positive : 0 < first) {before after : State}
    (coherent : before.shared.Coherent first) {frame : Frame} {cls : ClassId}
    (current : before.context.stack.current = .ok frame) (under : frame.cls = some cls)
    {visibility : Visibility} (plain : visibility ≠ .moduleFunction) {names : List Value} {result : Value}
    (changed : applyVisibility visibility names before = .ok result after) {context : Context}
    (gave : before.shared.Gave first context.identities) {fuel : Nat} {receiver : Value} {name : String}
    {args : List Value} {block : Option ClosureId}
    (undisturbed : ∀ r ∈ Reissue.chain cls visibility names before, ∃ fault lambdas,
      r.Undisturbed fault lambdas fuel (.call receiver name args block .functional) context) :
    shown (callMethod (answer fuel) receiver name args block .functional ⟨before.shared, context⟩) =
      shown (callMethod (answer fuel) receiver name args block .functional ⟨after.shared, context⟩) := by
  cases names with
  | nil =>
    have step : applyVisibility visibility [] before = (setVisibility visibility >>= fun _ => pure .nil) before :=
      rfl
    have same : after.shared = before.shared := by
      simp only [step, setVisibility, Bind.bind, EStateM.bind, Eval.read] at changed
      cases set : before.context.stack.setVisibility visibility with
      | error fault =>
        rw [set] at changed
        cases changed
      | ok stack =>
        rw [set] at changed
        cases changed
        rfl
    rw [same]
  | cons value rest =>
    have step : applyVisibility visibility (value :: rest) before =
        (currentClass >>= fun cls => changeAll cls visibility (value :: rest) >>= fun _ => pure .nil) before :=
      rfl
    have own : currentClass before = .ok cls before := by
      have reads : currentClass before = .ok (frame.cls.getD Core.object) before :=
        bind_ok (currentFrame_ok current)
      rw [reads, under]
      rfl
    rw [step, bind_ok own] at changed
    cases ends : changeAll cls visibility (value :: rest) before with
    | error halt t =>
      rw [bind_error ends] at changed
      cases changed
    | ok _ t =>
      rw [bind_ok ends] at changed
      cases changed
      exact changeAll_shown plain positive ends coherent gave undisturbed

section heir

/-- A method that a class below inherits. -/
def Library.heir : Library where
  classes := #[{ name := "Object", methods := Table.insert {} "m" 0 },
    { name := "Heir", lineage := [Core.object] }]
  methods := #[⟨Core.object, .pub, .frameAndScope, ⟨1⟩, .interpreted ⟨0, {}, .globalSet "g" (.int 7)⟩ {}⟩]

/-- In the body of the class below. -/
def State.heir : State :=
  ⟨{ library := .heir, nextTarget := 2 },
    { id := 0, main := ⟨0, 0⟩, scopes := [[]], stack := .ofRoot { self := .cls 1, cls := some 1 } none }⟩

theorem Library.heir_tidy : heir.Tidy := by
  refine ⟨⟨by decide +kernel, fun name id named => ?_, by decide⟩, .of_entries (by decide +kernel)⟩
  simp [heir] at named

theorem State.heir_coherent : heir.shared.Coherent 1 where
  numbered := ⟨by decide +kernel, by decide +kernel, by decide⟩
  tidy := Library.heir_tidy
  faithful := by
    refine ⟨fun _ => Backend.lowering_faithful, fun id => Method.faithful_of_plain ?_⟩
    by_cases inside : id < heir.shared.library.methods.size
    · obtain rfl : id = 0 := Nat.lt_one_iff.1 inside
      rfl
    · rw [Library.method_outside (Nat.le_of_not_lt inside)]
      rfl
  known inside := absurd inside (Nat.not_lt_zero _)

/-- The method becomes private in the class below. -/
def Reissue.heir : Reissue := ⟨State.heir.shared, 1, "m", 0, .priv⟩

theorem Reissue.heir_undisturbed : heir.Undisturbed .noScope (fun _ => false) 3
    (.call (.object ⟨1, 1⟩) "m" [] none .functional) State.heir.context := by
  let precaution := heir.precaution .noScope fun _ => false
  obtain ⟨t, ends⟩ : ∃ t, precaution.perform (precaution.answer 3)
      (.call (.object ⟨1, 1⟩) "m" [] none .functional) ⟨heir.after, State.heir.context⟩ =
        .ok (.int 7) t := ⟨_, rfl⟩
  exact fun _ => ends ▸ nofun

/-- The method of the class above is called on an instance of the class below, which has a private copy
of it after the change. -/
theorem Eval.visibility_change_not_shown_heir : ∃ t,
    applyVisibility .priv [.str "m"] State.heir = .ok .nil t ∧
      t.shared.library.ownMethod 1 "m" = some 1 ∧
      (t.shared.library.method 1).visibility = .priv ∧
      (∀ r ∈ Reissue.chain 1 .priv [.str "m"] State.heir, ∃ fault lambdas, r.Undisturbed fault lambdas 3
        (.call (.object ⟨1, 1⟩) "m" [] none .functional) State.heir.context) ∧
      shown (callMethod (answer 3) (.object ⟨1, 1⟩) "m" [] none .functional State.heir) =
        shown (callMethod (answer 3) (.object ⟨1, 1⟩) "m" [] none .functional
          ⟨t.shared, State.heir.context⟩) ∧
      (shown (callMethod (answer 3) (.object ⟨1, 1⟩) "m" [] none .functional State.heir)).1 =
        .ok (.int 7) := by
  have undisturbed : ∀ r ∈ Reissue.chain 1 .priv [.str "m"] State.heir, ∃ fault lambdas,
      r.Undisturbed fault lambdas 3 (.call (.object ⟨1, 1⟩) "m" [] none .functional)
        State.heir.context := by
    intro r member
    obtain rfl : r = Reissue.heir := List.mem_singleton.1 member
    exact ⟨.noScope, _, Reissue.heir_undisturbed⟩
  have changed : applyVisibility .priv [.str "m"] State.heir =
      .ok .nil ⟨Reissue.heir.after, State.heir.context⟩ := rfl
  have plain : Visibility.priv ≠ .moduleFunction := nofun
  have gave : State.heir.shared.Gave 1 State.heir.context.identities := by
    unfold Shared.Gave
    decide +kernel
  refine ⟨_, changed, rfl, rfl, undisturbed, ?_, rfl⟩
  exact visibility_change_not_shown Nat.one_pos State.heir_coherent rfl rfl plain changed gave undisturbed

end heir

/-- A private copy of `n` is told from the original. In `again` it calls super, which is the original once
more, so that `n` counts twice. In `refused` it has a call with a receiver that the change is there to
refuse. -/
theorem visibility_change_shown :
    let session := Session.start {} Backend.lowering true [] 1 1
    let s : State := ⟨session.shared, session.contexts.getD 0 default⟩
    let change : Node := .call none "private" [.str "n"] .absent
    let functional : Node := .define "go" 0 {} (.call none "n" [] .absent)
    let made : Node := .call (some (.constant "C")) "new" [] .absent
    let again (changes : List Node) : Node := .seq
      [.classBody "A" none false 0 (.define "n" 0 {} .nil),
      .classBody "B" (some "A") false 0 (.define "n" 0 {}
        (.seq [.globalSet "$count" (.binary .add (.globalGet "$count") (.int 1)), .superCall])),
      .classBody "C" (some "B") false 0 (.seq (changes ++ [functional])),
      .globalSet "$count" (.int 0), .call (some made) "go" [] .absent, .globalGet "$count"]
    let refused (changes : List Node) : Node := .seq
      [.classBody "C" none false 0 (.seq (.define "n" 0 {} (.cond (.globalGet "$inner") (.int 7)
        (some (.seq [.globalSet "$inner" (.bool true), .call (some made) "n" [] .absent]))) ::
          changes ++ [functional])),
      .rescue (.call (some made) "go" [] .absent) (.int 8)]
    (∃ t, Engine.toplevel 9 0 (again []) s = .ok (.int 1) t) ∧
      (∃ t, Engine.toplevel 9 0 (again [change]) s = .ok (.int 2) t) ∧
      (∃ t, Engine.toplevel 9 0 (refused []) s = .ok (.int 7) t) ∧
      ∃ t, Engine.toplevel 9 0 (refused [change]) s = .ok (.int 8) t := by
  intro session s change functional made again refused
  exact ⟨of_finalInt? (by decide +kernel), of_finalInt? (by decide +kernel),
    of_finalInt? (by decide +kernel), of_finalInt? (by decide +kernel)⟩

end CallEngine
