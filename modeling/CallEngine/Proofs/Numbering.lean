import CallEngine.Proofs.Identities
/-! Which identities a state holds: all of them have been given out, and no two methods or closures
have the same one. -/
namespace CallEngine

def Frame.identities (frame : Frame) : List Target :=
  frame.jumpTarget.toList ++ frame.activation.toList

/-- The identities of all methods and closures. -/
def Shared.instances (shared : Shared) : List Target :=
  shared.library.methods.toList.map Method.target ++ shared.closures.toList.map Closure.target

def Shared.identities (shared : Shared) : List Target :=
  shared.instances ++ shared.closures.toList.flatMap (·.binding.frame.identities)

def Context.identities (context : Context) : List Target :=
  context.stack.frames.flatMap Frame.identities ++ context.liveLiterals

/-- The identities have been given out, from `first` on. -/
def Shared.Gave (shared : Shared) (first : Nat) (targets : List Target) : Prop :=
  ∀ target ∈ targets, first ≤ target.serial ∧ target.serial < shared.nextTarget

instance (shared : Shared) (first : Nat) (targets : List Target) : Decidable (shared.Gave first targets) :=
  inferInstanceAs (Decidable (∀ target ∈ targets, _ ∧ _))

structure Shared.Numbered (first : Nat) (shared : Shared) : Prop where
  distinct : shared.instances.Nodup
  given : shared.Gave first shared.identities
  first : first ≤ shared.nextTarget

structure State.Numbered (first : Nat) (s : State) : Prop where
  shared : s.shared.Numbered first
  context : s.shared.Gave first s.context.identities

@[simp] theorem Frame.identities_duplicate (frame : Frame) :
    frame.duplicate.identities = frame.jumpTarget.toList := by
  simp [identities, duplicate]

namespace Shared.Gave

variable {shared later : Shared} {first : Nat} {targets others : List Target}

theorem mono (gave : shared.Gave first targets) (next : shared.nextTarget ≤ later.nextTarget) :
    later.Gave first targets :=
  fun target member => (gave target member).imp_right (Nat.lt_of_lt_of_le · next)

theorem subset (gave : shared.Gave first targets) (subset : others ⊆ targets) :
    shared.Gave first others :=
  fun target member => gave target (subset member)

theorem append (left : shared.Gave first targets) (right : shared.Gave first others) :
    shared.Gave first (targets ++ others) :=
  fun target member => (List.mem_append.1 member).elim (left target) (right target)

theorem duplicate {frame : Frame} (gave : shared.Gave first frame.identities) :
    shared.Gave first frame.duplicate.identities := by
  rw [Frame.identities_duplicate]
  exact gave.subset (List.subset_append_left ..)

end Shared.Gave

namespace Shared.Numbered

variable {shared later : Shared} {first : Nat} (numbered : shared.Numbered first)
include numbered

theorem of_eq (methods : later.library.methods.map Method.target =
      shared.library.methods.map Method.target)
    (closures : later.closures = shared.closures)
    (nextTarget : later.nextTarget = shared.nextTarget) : later.Numbered first := by
  have same : later.library.methods.toList.map Method.target =
      shared.library.methods.toList.map Method.target := by
    simpa using congrArg Array.toList methods
  have instances : later.instances = shared.instances := by
    simp only [Shared.instances, same, closures]
  have identities : later.identities = shared.identities := by
    simp only [Shared.identities, instances, closures]
  refine ⟨instances ▸ numbered.distinct, ?_, nextTarget ▸ numbered.first⟩
  exact identities ▸ numbered.given.mono (Nat.le_of_eq nextTarget.symm)

theorem instances_given : shared.Gave first shared.instances :=
  numbered.given.subset (List.subset_append_left ..)

theorem next_given (next : shared.nextTarget < later.nextTarget) :
    later.Gave first [⟨shared.nextTarget⟩] := by
  simpa [Gave] using ⟨numbered.first, next⟩

/-- The next identity is not among those that were given out. -/
theorem distinct_cons : (⟨shared.nextTarget⟩ :: shared.instances).Nodup := by
  refine List.nodup_cons.2 ⟨fun member => ?_, numbered.distinct⟩
  exact Nat.lt_irrefl _ (numbered.instances_given _ member).2

theorem addMethod {method : Target → Method} (own : ∀ target, (method target).target = target) :
    (shared.addMethod method).2.Numbered first := by
  have instances : (shared.addMethod method).2.instances.Perm
      (⟨shared.nextTarget⟩ :: shared.instances) := by
    simp only [Shared.instances, Shared.addMethod, Shared.freshTarget, Library.addMethod,
      Array.toList_push, List.map_append, List.map_cons, List.map_nil, own, List.append_assoc]
    exact List.perm_middle
  have next : shared.nextTarget < (shared.addMethod method).2.nextTarget := Nat.lt_succ_self _
  have given := numbered.given.mono (Nat.le_of_lt next)
  refine ⟨instances.nodup_iff.2 numbered.distinct_cons, ?_, Nat.le_succ_of_le numbered.first⟩
  refine Gave.append (.subset (.append (numbered.next_given next) given) ?_) ?_
  · intro target member
    rcases List.mem_cons.1 (instances.mem_iff.1 member) with rfl | member
    · simp
    · simp [Shared.identities, member]
  · exact given.subset (List.subset_append_right ..)

theorem addClosure {binding : Binding} (body : ClosureBody) (kind : ClosureKind)
    (captured : shared.Gave first binding.frame.identities) :
    (shared.addClosure body binding kind).2.Numbered first := by
  let made := shared.made body binding kind
  have closures : (shared.addClosure body binding kind).2.closures = shared.closures.push made := rfl
  have next : shared.nextTarget < (shared.addClosure body binding kind).2.nextTarget :=
    Nat.lt_succ_self _
  have given := numbered.given.mono (Nat.le_of_lt next)
  have new := numbered.next_given next
  have remembered : (shared.addClosure body binding kind).2.Gave first
      made.binding.frame.identities := by
    refine .subset (.append new (captured.mono (Nat.le_of_lt next))) ?_
    dsimp only [made, Shared.made]
    split <;> simp [Frame.identities]
  have instances : (shared.addClosure body binding kind).2.instances =
      shared.instances ++ [⟨shared.nextTarget⟩] := by
    simp only [Shared.instances, closures, Array.toList_push, List.map_append, List.append_assoc]
    rfl
  refine ⟨instances ▸ ?_, ?_, Nat.le_succ_of_le numbered.first⟩
  · exact (List.perm_append_singleton ..).nodup_iff.2 numbered.distinct_cons
  · simp only [Shared.identities, instances, closures, Array.toList_push, List.flatMap_append]
    refine .append (.append ?_ new) (.append ?_ ?_)
    · exact given.subset (List.subset_append_left ..)
    · exact given.subset (List.subset_append_right ..)
    · simpa using remembered

theorem freshTarget : shared.freshTarget.2.Numbered first :=
  ⟨numbered.distinct, numbered.given.mono (Nat.le_succ _), Nat.le_succ_of_le numbered.first⟩

theorem captured_given (id : ClosureId) :
    shared.Gave first (shared.closure id).binding.frame.identities := by
  simp only [Shared.closure, Array.getD_eq_getD_getElem?]
  cases found : shared.closures[id]? with
  | none => exact fun _ member => absurd member List.not_mem_nil
  | some closure =>
    have member : closure ∈ shared.closures.toList :=
      Array.mem_toList_iff.2 (Array.mem_of_getElem? found)
    refine numbered.given.subset fun target own => List.mem_append_right _ ?_
    exact List.mem_flatMap.2 ⟨closure, member, own⟩

theorem closure_given {id : ClosureId} (inside : id < shared.closures.size) :
    shared.Gave first [(shared.closure id).target] := by
  have found : shared.closure id ∈ shared.closures.toList := by
    simp [Shared.closure, inside]
  refine numbered.instances_given.subset fun target own => List.mem_append_right _ ?_
  exact List.mem_singleton.1 own ▸ List.mem_map_of_mem found

/-- Only lambdas put their identity into a frame, and what is no closure is no lambda. -/
theorem frame_given (id : ClosureId) (delivery : Delivery) :
    shared.Gave first ((shared.closure id).frame delivery).identities := by
  have captured := numbered.captured_given id
  refine .append (captured.subset ?_) ?_
  · exact List.subset_append_left ..
  · dsimp only [Closure.frame]
    split
    · next lambda =>
      refine numbered.closure_given (Nat.lt_of_not_le fun outside => ?_)
      simp [Shared.closure, outside] at lambda
      cases lambda
    · exact fun _ member => absurd member List.not_mem_nil

theorem invocation_given (id : MethodId) (call : Call) :
    shared.Gave first ((shared.library.method id).invocation call).target.toList := by
  simp only [Library.method, Array.getD_eq_getD_getElem?]
  cases found : shared.library.methods[id]? with
  | none => exact fun _ member => absurd member List.not_mem_nil
  | some m =>
    have member : m ∈ shared.library.methods.toList :=
      Array.mem_toList_iff.2 (Array.mem_of_getElem? found)
    refine numbered.instances_given.subset fun target own => List.mem_append_left _ ?_
    have own := Method.invocation_target (Option.mem_toList.1 own)
    exact own ▸ List.mem_map_of_mem member

end Shared.Numbered

end CallEngine
