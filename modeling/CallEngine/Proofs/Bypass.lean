import CallEngine.Proofs.Interrupts
import CallEngine.Proofs.Promotion
/-! Backends that are not to be trusted. While hooks are registered no code is run that a backend
gave, and with compilation off none is asked for any. So a session is the same under any two of them. -/
namespace CallEngine
open Eval

/-- Hooks come with commands only: an evaluation that has seen the last one leave runs on without. -/
theorem Monitor.fire_inactive {monitor : Monitor} (event : Event) (lapsed : ¬monitor.isActive) :
    ¬(monitor.fire event).isActive := by
  have none : monitor.hooks = [] := by simpa [isActive] using lapsed
  simp [isActive, fire_hooks, none]

/-- Calls go on with the tree as long as there are hooks, whatever it was promoted to. -/
theorem Monitor.isActive_hides :
    Hides (fun shared => shared.monitor.isActive) fun monitor => ¬monitor.isActive where
  fire := fire_inactive
  settle _ := id
  update isLocal active := (isLocal.monitor _).symm ▸ active
  monitor monitor _ := (Decidable.em _).symm
  promote {s} id name active := (s.promote_monitor id name).symm ▸ active
  tree {run s id _} name active _ _ := by
    rw [codeToRun_runs, s.promote_monitor, if_pos active]

theorem Session.addContexts_monitor (session : Session) (count : Nat) :
    (session.addContexts count).shared.monitor = session.shared.monitor :=
  addContexts_keeps (P := fun later => later.shared.monitor = session.shared.monitor)
    (fun _ same => same) rfl count

/-- Sessions under two backends, which may answer with any code, refuse or crash. Steps are answered
alike, and contexts with their globals, variables and events are the same after them. -/
theorem backend_bypassed (config : Config) (backend backend' : Backend) (tells tells' : Bool)
    (hooks : List Hook) (contexts firstTarget fuel : Nat) {steps : List Session.Step}
    (hides : ∀ step ∈ steps, step.command.hidesPromotion)
    (bypassed : config.mode = .off ∨
      ∀ count, ((Session.start config backend tells hooks contexts firstTarget).after fuel
        (steps.take count)).shared.monitor.isActive) :
    let session := Session.start config backend tells hooks contexts firstTarget
    let session' := Session.start config backend' tells' hooks contexts firstTarget
    (session.run fuel steps).map Session.Reply.plain =
        (session'.run fuel steps).map Session.Reply.plain ∧
      (session.after fuel steps).plain = (session'.after fuel steps).plain := by
  intro session session'
  rcases bypassed with off | active
  · have asked (backend : Backend) (asks : config.mode ≠ .off) : backend.Faithful := absurd off asks
    have alike : Session.Alike Shared.Faithful session session' :=
      Shared.Faithful.hides.start rfl (Shared.start_faithful (asked _) hooks firstTarget)
        (Shared.start_faithful (asked _) hooks firstTarget) tells tells' contexts
    obtain ⟨replies, last⟩ := alike.after Shared.Faithful.hides fuel hides fun _ => id
    exact ⟨replies, last.plain⟩
  · let bare : Session := ⟨Shared.start config backend hooks firstTarget, [], {}, tells⟩
    have started : bare.shared.monitor.isActive := bare.addContexts_monitor contexts ▸ active 0
    have sameLimit : config.depthLimit = config.depthLimit := rfl
    have same : bare.shared.monitor = (Shared.start config backend' hooks firstTarget).monitor :=
      (congrArg Shared.monitor (Shared.start_plain backend backend' sameLimit hooks firstTarget) :)
    have alike : Session.Alike (fun shared => shared.monitor.isActive) session session' :=
      Monitor.isActive_hides.start rfl started (same ▸ started) tells tells' contexts
    obtain ⟨replies, last⟩ := alike.after Monitor.isActive_hides fuel hides fun count lapsed =>
      lapsed (active count)
    exact ⟨replies, last.plain⟩

/-- Calls are compiled to the wrong number, and the hook keeps that code from being run. -/
theorem backend_bypassed_wrong_number :
    let define : Source := .define "one" {} {} (.int 1)
    let steps : List Session.Step :=
      [{ command := .run (.seq [define, .bareCall "one"]) [] none }]
    let start (backend : Backend) (hooks : List Hook) :=
      Session.start { mode := .force } backend true hooks 1 1
    let two := Backend.constant (.const (.int 2))
    let hook : Hook := { id := 0 }
    ((start two [hook]).after 5 steps).shared.stats.compiled = 1 ∧
      (((start two [hook]).run 5 steps).map Session.Reply.plain =
        ((start .crashing [hook]).run 5 steps).map Session.Reply.plain) := by
  intro define steps start two hook
  have hides : ∀ step ∈ steps, step.command.hidesPromotion := by
    intro step member
    exact List.mem_singleton.1 member ▸ rfl
  have active (count : Nat) : ((start two [hook]).after 5 (steps.take count)).shared.monitor.isActive := by
    cases count with
    | zero => decide +kernel
    | succ count =>
      rw [List.take_succ_cons, List.take_nil]
      decide +kernel
  have bypassed := backend_bypassed { mode := .force } two .crashing true true [hook] 1 1 5 hides
    (.inr active)
  exact ⟨by decide +kernel, bypassed.1⟩

end CallEngine
