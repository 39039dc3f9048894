import CallEngine.Proofs.Postconditions
import CallEngine.Proofs.Promotion
/-! Methods whose bodies can ask for more run in frames of their own: those that scripts make, and the
built-in ones. -/
namespace CallEngine
open Eval

/-- Built-in methods that neither call nor yield. -/
def Builtin.isQuiet : Builtin → Bool
  | .inspect | .setVisibility _ | .size | .arity | .isLambda => true
  | .loop | .new | .each | .times | .callClosure => false

/-- Only a body that asks for nothing runs in place. -/
def Method.HasFrame (m : Method) : Prop :=
  m.config ≠ .inPlace ∨ ∃ builtin, m.body = .builtin builtin ∧ builtin.isQuiet

def Shared.HasFrames (shared : Shared) : Prop := ∀ id, (shared.library.method id).HasFrame

namespace Method

variable {m copy : Method}

/-- How far its promotion has come does not matter. -/
theorem plain_hasFrame : m.plain.HasFrame ↔ m.HasFrame := by
  obtain ⟨owner, visibility, config, target, body⟩ := m
  cases body with
  | interpreted | compiled => simp [HasFrame, plain, renewed]
  | builtin => rfl

theorem Copies.hasFrame (copies : copy.Copies m) (hasFrame : m.HasFrame) : copy.HasFrame := by
  rcases copies.config with same | same
  · rcases plain_hasFrame.2 hasFrame with pushes | ⟨builtin, own, isQuiet⟩
    · exact .inl (same ▸ pushes)
    · exact .inr ⟨builtin, copies.body.trans own, isQuiet⟩
  · exact .inl (same ▸ nofun)

end Method

namespace Shared.HasFrames

variable {shared : Shared}

theorem addMethod {method : Target → Method} (hasFrames : shared.HasFrames)
    (new : ∀ target, (method target).HasFrame) : (shared.addMethod method).2.HasFrames := by
  intro id
  change ((shared.library.addMethod _).2.method id).HasFrame
  rw [Library.method_addMethod]
  split
  · exact new _
  · exact hasFrames id

end Shared.HasFrames

theorem Quiet.hasFrames {α : Type} {f : State → α × State} (quiet : Quiet f) (s : State)
    (hasFrames : s.shared.HasFrames) : (f s).2.shared.HasFrames := by
  intro id
  rcases quiet.copies s id with same | ⟨other, copies⟩
  · exact same ▸ hasFrames id
  · exact copies.hasFrame (hasFrames other)

theorem State.promote_hasFrames {s : State} (id : MethodId) (name : String)
    (hasFrames : s.shared.HasFrames) : (s.promote id name).2.shared.HasFrames := by
  intro other
  have same : ((s.promote id name).2.shared.library.method other).plain =
      (s.shared.library.method other).plain := by
    simpa [State.plain, Shared.plain] using
      congrArg (fun s : State => s.shared.library.method other) (s.promote_plain id name)
  exact Method.plain_hasFrame.1 (same ▸ Method.plain_hasFrame.2 (hasFrames other))

/-- Evaluations make no method that calls without a frame. -/
def KeepsFrames : EvalProperty := Moves fun s t => s.shared.HasFrames → t.shared.HasFrames

theorem KeepsFrames.motion :
    FreeMotion fun s t => s.shared.HasFrames → t.shared.HasFrames where
  refl _ := id
  trans first second := second ∘ first
  stack _ _ := id
  scopes _ _ := id
  enterLive _ _ := id
  leaveLive _ _ := id
  settle _ := id
  fire _ _ := id
  promote _ := State.promote_hasFrames
  quiet := Quiet.hasFrames
  memory _ _ := id
  newClosure _ _ _ _ := id
  newMethod _ owner visibility definition hasFrames := by
    have own (target : Target) : Method.HasFrame
        ⟨owner, visibility, .frameAndScope, target, .interpreted definition {}⟩ := .inl nofun
    exact hasFrames.addMethod own

theorem KeepsFrames.hosting : Hosting KeepsFrames :=
  KeepsFrames.motion.hosting fun _ => id

namespace Session

/-- Commands other than those that make a method which calls without a frame. -/
def Command.keepsFrames : Command → Bool
  | .define _ _ _ config _ _ | .copyMethod _ _ _ _ _ config _ => config != some .inPlace
  | _ => true

theorem Command.needs_hasFrames {command : Command} (keeps : command.keepsFrames) :
    command.Needs KeepsFrames := by
  cases command with
  | define cls decl visibility config isSingleton isCompiled =>
    intro owner body isNew s hasFrames
    have own (target : Target) : Method.HasFrame
        ⟨owner, visibility, config.getD .frameAndScope, target, body⟩ := by
      left
      cases config with
      | none => exact nofun
      | some config => simpa [keepsFrames] using keeps
    exact hasFrames.addMethod own
  | copyMethod selector toClass toName keepsOwner visibility config toSingleton =>
    intro id cls s hasFrames
    let m := s.shared.library.method id
    have own (target : Target) : Method.HasFrame
        { m.renewed target with
          owner := if keepsOwner then m.owner else cls
          visibility := visibility.getD m.visibility
          config := config.getD m.config } := by
      cases config with
      | none =>
        have copies : Method.Copies { m.renewed target with
            owner := if keepsOwner then m.owner else cls
            visibility := visibility.getD m.visibility } m := ⟨rfl, .inl rfl⟩
        exact copies.hasFrame (hasFrames id)
      | some config => exact .inl (by simpa [keepsFrames] using keeps)
    exact hasFrames.addMethod own
  | interrupt | addHook | removeHook => exact fun _ _ => id
  | _ => trivial

theorem perform_keepsFrames (fuel : Nat) (names : Names) {command : Command}
    (keeps : command.keepsFrames) : KeepsFrames (perform fuel names command) :=
  KeepsFrames.hosting.performAny KeepsFrames.motion.chains.read fuel names
    (Command.needs_hasFrames keeps)

theorem after_hasFrames (fuel : Nat) {session : Session} {steps : List Step}
    (keep : ∀ step ∈ steps, step.command.keepsFrames) (hasFrames : session.shared.HasFrames) :
    (session.after fuel steps).shared.HasFrames :=
  after_shared (R := fun before after => before.HasFrames → after.HasFrames) (fun _ => id)
    (fun first second => second ∘ first) (fun _ _ => id) fuel session
    (fun step member _ => perform_keepsFrames fuel _ (keep step member)) hasFrames

/-- The built-in methods that run in place are quiet. -/
theorem start_hasFrames (config : Config) (backend : Backend) (tellsCompiles : Bool)
    (hooks : List Hook) (contexts firstTarget : Nat) :
    (start config backend tellsCompiles hooks contexts firstTarget).shared.HasFrames := by
  have entries : ∀ entry ∈ Core.methods, entry.config ≠ .inPlace ∨ entry.builtin.isQuiet := by
    decide
  have before : { config, backend, nextTarget := firstTarget : Shared }.withCoreClasses.HasFrames :=
    fun id => .inr ⟨default, rfl, rfl⟩
  have core := List.foldlRecOn Core.methods Shared.install (motive := Shared.HasFrames) before
    fun shared hasFrames entry member id => by
      have own (target : Target) : Method.HasFrame
          ⟨entry.cls, entry.visibility, entry.config, target, .builtin entry.builtin⟩ :=
        (entries entry member).imp_right fun isQuiet => ⟨entry.builtin, rfl, isQuiet⟩
      exact hasFrames.addMethod own id
  refine addContexts_keeps (P := fun session => session.shared.HasFrames)
    (fun _ hasFrames => hasFrames) ?_ contexts
  exact core

end Session

end CallEngine
