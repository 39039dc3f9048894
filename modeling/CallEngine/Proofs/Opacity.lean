import CallEngine.Proofs.MirroredSessions
/-! Identities are opaque. Where the numbering starts makes no difference to a session but for the
identities themselves, and no two methods or closures ever have the same one. -/
namespace CallEngine
open Eval

/-- Identities from `first` on become those from `first'` on. -/
def Target.renumbered (first first' : Nat) (target : Target) : Target :=
  if target.serial < first then target else ⟨target.serial - first + first'⟩

namespace Target

variable {first first' second : Nat}

theorem renumbered_first : renumbered first first' ⟨first⟩ = ⟨first'⟩ := by
  simp [renumbered]

theorem renumbered_injective {t u : Target} (left : first ≤ t.serial) (right : first ≤ u.serial)
    (same : renumbered first first' t = renumbered first first' u) : t = u := by
  obtain ⟨m⟩ := t
  obtain ⟨n⟩ := u
  simp only [renumbered, Nat.not_lt.2 left, Nat.not_lt.2 right, if_false, Target.mk.injEq] at same ⊢
  dsimp only at left right
  omega

/-- The numbering may be changed twice. Nothing but zero comes before one. -/
theorem renumbered_comp (positive : 0 < first) :
    renumbered first second ∘ renumbered 1 first = renumbered 1 second := by
  funext ⟨n⟩
  by_cases before : n < 1
  · have least : n < first := by omega
    simp [renumbered, before, least]
  · have after : ¬(n - 1 + first < first) := by omega
    simp [renumbered, before, after]

end Target

namespace Mirror

/-- A run beside one under other identities, whatever becomes of the library. -/
def plainly (rename : Target → Target) (first : Nat) : Mirror :=
  ⟨rename, first, fun _ => True, True⟩

theorem plainly_kept {rename : Target → Target} {first : Nat} (positive : 0 < first)
    (injective : ∀ t u, rename t = rename u → t = u) (zero : rename ⟨0⟩ = ⟨0⟩)
    (next : ∀ n, 0 < n → rename ⟨n + 1⟩ = ⟨(rename ⟨n⟩).serial + 1⟩) :
    (plainly rename first).IsKept where
  injective := injective
  zero := zero
  next := next
  first := positive
  adds _ _ := trivial
  sets _ _ := trivial
  binds _ _ _ := trivial
  bindsSingleton _ _ _ := trivial
  defines _ _ _ := trivial
  definesModule _ _ := trivial

/-- The second run numbers identities from `first` on instead of from one on. -/
abbrev renumbering (first : Nat) : Mirror := plainly (Target.renumbered 1 first) 1

theorem renumbering_kept {first : Nat} (positive : 0 < first) : (renumbering first).IsKept := by
  refine plainly_kept Nat.one_pos ?_ rfl fun n given => ?_
  · rintro ⟨m⟩ ⟨n⟩ same
    simp only [Target.renumbered] at same
    split at same <;> split at same <;> simp only [Target.mk.injEq] at same ⊢ <;> omega
  · have after : ¬n < 1 := by omega
    simp only [Target.renumbered, after, if_false]
    split <;> simp only [Target.mk.injEq] <;> omega

/-- A run beside itself. -/
abbrev numbering (first : Nat) : Mirror := plainly id first

theorem numbering_kept {first : Nat} (positive : 0 < first) : (numbering first).IsKept :=
  plainly_kept positive (fun _ _ same => same) rfl fun _ _ => rfl

end Mirror

section sessions

variable (config : Config) (backend : Backend) (tellsCompiles : Bool) (hooks : List Hook)
  (contexts fuel : Nat)

/-- Every session is one that numbers identities from one on, under other identities. -/
theorem Session.start_renumbered {first : Nat} (positive : 0 < first) :
    let start := start config backend tellsCompiles hooks contexts
    (start 1).renamed (Target.renumbered 1 first) = start first ∧
      (Mirror.renumbering first).Settled (start 1) := by
  intro start
  have kept := Mirror.renumbering_kept positive
  obtain ⟨same, settled⟩ := kept.start_renamed trivial config backend tellsCompiles hooks contexts
  have next : (Target.renumbered 1 first ⟨1⟩).serial = first :=
    congrArg Target.serial Target.renumbered_first
  exact ⟨same.trans (congrArg start next), settled⟩

theorem Session.run_renumbered {first : Nat} (positive : 0 < first) {base session : Session}
    (same : base.renamed (Target.renumbered 1 first) = session)
    (settled : (Mirror.renumbering first).Settled base) (steps : List Step) :
    session.run fuel steps = base.run fuel steps ∧
      session.after fuel steps = (base.after fuel steps).renamed (Target.renumbered 1 first) ∧
      (Mirror.renumbering first).Settled (base.after fuel steps) := by
  subst same
  exact (Mirror.renumbering_kept positive).run_renamed settled fuel steps fun _ _ _ => trivial

theorem Session.perform_renumbered {first : Nat} (positive : 0 < first) {base : Session}
    (settled : (Mirror.renumbering first).Settled base) (names : Names) (command : Command)
    (context : ContextId) :
    let other := base.renamed (Target.renumbered 1 first)
    perform fuel names command ⟨other.shared, other.contexts.getD context default⟩ =
      renamedResult (Target.renumbered 1 first) id
        (perform fuel names command ⟨base.shared, base.contexts.getD context default⟩) :=
  (Mirror.renumbering_kept positive).perform_renamed settled fuel names (fun _ => trivial) context

theorem State.Numbered.proper {first : Nat} {s : State} (numbered : s.Numbered first) :
    (Mirror.numbering first).Proper s := ⟨numbered, trivial⟩

/-- All identities that are held in the course of a session have been given out, each one to one method
or closure only. -/
theorem Session.after_numbered {first : Nat} (positive : 0 < first) (steps : List Step)
    (context : ContextId) :
    let later := (start config backend tellsCompiles hooks contexts first).after fuel steps
    State.Numbered first ⟨later.shared, later.contexts.getD context default⟩ := by
  have kept := Mirror.numbering_kept positive
  exact (kept.after_proper trivial config backend tellsCompiles hooks contexts fuel
    steps (fun _ _ _ => trivial) context).toNumbered

/-- Two sessions that differ in where the numbering of identities starts answer alike, and their states
and signals are the same under a renaming that keeps identities apart. No two methods or closures have
the same identity, and all that are held have been given out, also where scripts or calls are still
running. -/
theorem identities_opaque {first first' : Nat} (positive : 0 < first) (positive' : 0 < first')
    (steps : List Session.Step) :
    let start := Session.start config backend tellsCompiles hooks contexts
    let left := (start first).after fuel steps
    let right := (start first').after fuel steps
    let ρ := Target.renumbered first first'
    (∀ t u, first ≤ t.serial → first ≤ u.serial → ρ t = ρ u → t = u) ∧
      (start first').run fuel steps = (start first).run fuel steps ∧
      right = left.renamed ρ ∧
      (∀ names command context,
        Session.perform fuel names command ⟨right.shared, right.contexts.getD context default⟩ =
          renamedResult ρ id (Session.perform fuel names command
            ⟨left.shared, left.contexts.getD context default⟩)) ∧
      (∀ context, State.Numbered first ⟨left.shared, left.contexts.getD context default⟩) ∧
      ∀ s : State, s.Numbered first →
        (∀ scope (node : Node) last final t,
          During (fun ask => Engine.toplevelOf scope (node.eval fuel ask)) fuel s last final t →
            t.Numbered first) ∧
        ∀ request last final t, Leads (fun _ _ => True) fuel request s last final t →
          t.Numbered first := by
  intro start left right ρ
  have numbers := Mirror.numbering_kept positive
  obtain ⟨starts, settled⟩ :=
    Session.start_renumbered config backend tellsCompiles hooks contexts positive
  obtain ⟨starts', settled'⟩ :=
    Session.start_renumbered config backend tellsCompiles hooks contexts positive'
  obtain ⟨replies, states, settled⟩ := Session.run_renumbered fuel positive starts settled steps
  obtain ⟨replies', states', settled'⟩ :=
    Session.run_renumbered fuel positive' starts' settled' steps
  have left_eq : left = _ := states
  have right_eq : right = _ := states'
  have twice : ρ ∘ Target.renumbered 1 first = Target.renumbered 1 first' :=
    Target.renumbered_comp positive
  refine ⟨fun t u => Target.renumbered_injective, replies'.trans replies.symm, ?_,
    fun names command context => ?_,
    Session.after_numbered config backend tellsCompiles hooks contexts fuel positive steps,
    fun s numbered => ⟨fun scope node last final t reached => ?_, fun request last final t path => ?_⟩⟩
  · rw [left_eq, right_eq, Session.renamed_renamed, twice]
  · rw [left_eq, right_eq, Session.perform_renumbered fuel positive settled,
      Session.perform_renumbered fuel positive' settled', renamedResult_renamedResult, twice]
  · have follows : (Mirror.numbering first).Follows fun ask =>
        Engine.toplevelOf scope (node.eval fuel ask) :=
      fun asks => Mirror.IsKept.toplevelOf scope (numbers.eval asks fuel node)
    exact (numbers.during rfl follows reached numbered.proper).toNumbered
  · exact (numbers.leads rfl path numbered.proper).toNumbered

end sessions

/-- A method and a lambda, after the thirteen built-in methods. -/
theorem identities_opaque_from_five :
    let steps : List Session.Step :=
      [{ command := .run (.define "m" {} {} (.doReturn none)) [] none },
        { command := .makeClosure ⟨{}, {}, .bareCall "m"⟩ .lambda, register := some "f" },
        { command := .callClosure "f" [] }]
    let start := Session.start {} .lowering true [] 1
    let left := (start 1).after 5 steps
    let right := (start 5).after 5 steps
    left.shared.instances.drop 13 = [⟨14⟩, ⟨15⟩] ∧
      right.shared.instances.drop 13 = [⟨18⟩, ⟨19⟩] ∧
      (start 5).run 5 steps = (start 1).run 5 steps ∧
      right = left.renamed (Target.renumbered 1 5) := by
  intro steps start left right
  obtain ⟨-, replies, states, -⟩ :=
    identities_opaque {} .lowering true [] 1 5 Nat.one_pos (Nat.succ_pos 4) steps
  exact ⟨by decide +kernel, by decide +kernel, replies, states⟩

end CallEngine
