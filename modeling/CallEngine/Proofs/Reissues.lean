import CallEngine.Proofs.RecastRuns
/-! A class's own copy of a method, made when it is changed who may call it, beside the engine without
it. -/
namespace CallEngine
open Eval

/-- One number stands for another one, and those after it close the gap. -/
def merged (gone kept n : Nat) : Nat :=
  if n = gone then kept else if gone < n then n - 1 else n

section merged

variable {gone kept : Nat}

theorem merged_gone : merged gone kept gone = kept := if_pos rfl

theorem merged_of_lt {n : Nat} (before : n < gone) : merged gone kept n = n := by
  unfold merged
  rw [if_neg (Nat.ne_of_lt before), if_neg (Nat.lt_asymm before)]

theorem merged_of_gt {n : Nat} (after : gone < n) : merged gone kept n = n - 1 := by
  unfold merged
  rw [if_neg (Nat.ne_of_gt after), if_pos after]

theorem merged_succ {n : Nat} (after : gone < n) :
    merged gone kept (n + 1) = merged gone kept n + 1 := by
  rw [merged_of_gt after, merged_of_gt (Nat.lt_succ_of_lt after)]
  omega

variable (below : kept < gone)
include below

theorem merged_lt {n bound : Nat} (after : gone < bound) :
    merged gone kept n < merged gone kept bound ↔ n < bound := by
  rw [merged_of_gt after]
  unfold merged
  split
  · omega
  · split <;> omega

theorem merged_eq_kept {n : Nat} : merged gone kept n = kept ↔ n = kept ∨ n = gone := by
  unfold merged
  split
  · omega
  · split <;> omega

theorem merged_alone {n other : Nat} (apart : merged gone kept n ≠ kept)
    (same : merged gone kept other = merged gone kept n) : other = n := by
  unfold merged at apart same
  split at apart
  · exact absurd rfl apart
  · split at same
    · omega
    · split at same <;> split at same <;> omega

end merged

theorem Target.serial_eq {target other : Target} : target.serial = other.serial ↔ target = other := by
  cases target
  cases other
  simp

/-- What is found by its identity is there, and no two things go by one identity. -/
structure Shared.Coherent (first : Nat) (shared : Shared) : Prop where
  numbered : shared.Numbered first
  tidy : shared.library.Tidy
  faithful : shared.Faithful
  known {id : ClosureId} {method : MethodId} {name : String} : id < shared.closures.size →
    (shared.closure id).body = .method method name → method < shared.library.methods.size

theorem Library.method_outside {library : Library} {id : MethodId}
    (outside : library.methods.size ≤ id) : library.method id = default := by
  simp [method, outside]

theorem Shared.closure_outside {shared : Shared} {id : ClosureId}
    (outside : shared.closures.size ≤ id) : shared.closure id = default := by
  simp [closure, outside]

namespace Shared.Numbered

variable {shared : Shared} {first : Nat} (numbered : shared.Numbered first)
include numbered

theorem method_given {id : MethodId} (inside : id < shared.library.methods.size) :
    first ≤ (shared.library.method id).target.serial ∧
      (shared.library.method id).target.serial < shared.nextTarget := by
  refine numbered.instances_given _ (List.mem_append_left _ (List.mem_map_of_mem ?_))
  simp [Library.method, inside]

theorem method_apart {id other : MethodId} (inside : id < shared.library.methods.size)
    (inside' : other < shared.library.methods.size)
    (same : (shared.library.method id).target = (shared.library.method other).target) : id = other := by
  have nodup := (List.nodup_append.1 numbered.distinct).1
  have entry {id : MethodId} (inside : id < shared.library.methods.size) :
      (shared.library.methods.toList.map Method.target)[id]? = some (shared.library.method id).target := by
    simp [Library.method, inside]
  refine (List.getElem?_inj (by simpa using inside) nodup).1 ?_
  rw [entry inside, entry inside', same]

theorem closure_apart {id : ClosureId} {method : MethodId} (inside : id < shared.closures.size)
    (inside' : method < shared.library.methods.size) :
    (shared.closure id).target ≠ (shared.library.method method).target := by
  refine ((List.nodup_append.1 numbered.distinct).2.2 _ (List.mem_map_of_mem ?_) _
    (List.mem_map_of_mem ?_)).symm
  · simp [Library.method, inside']
  · simp [closure, inside]

end Shared.Numbered

/-- What super calls in the frame go to. -/
def Library.superMethod (library : Library) (frame : Frame) : Option MethodId := do
  library.searchAbove (← frame.cls) (← frame.name)

/-- A class is to have its own copy of a method that it has or inherits. -/
structure Reissue where
  shared : Shared
  cls : ClassId
  name : String
  source : MethodId
  visibility : Visibility

namespace Reissue

variable (r : Reissue)

/-- The method as it was found. -/
def original : Method := r.shared.library.method r.source

def copy : MethodId := r.shared.library.methods.size

def copyTarget : Target := ⟨r.shared.nextTarget⟩

def copied : Method :=
  { r.original.renewed r.copyTarget with owner := r.cls, visibility := r.visibility }

/-- With the copy. -/
def after : Shared :=
  let shared := (r.shared.addMethod fun target =>
    { r.original.renewed target with owner := r.cls, visibility := r.visibility }).2
  { shared with library := shared.library.defineMethod r.cls r.name r.copy }

/-- The method is one of a class above. -/
def IsInherited : Prop := r.original.owner ≠ r.cls

instance : Decidable r.IsInherited := inferInstanceAs (Decidable (r.original.owner ≠ r.cls))

/-- What returns from the copy and from the original are aimed at. -/
def targets : List Target := [r.original.target, r.copyTarget]

/-- The method is called for a receiver that only one of the original and the copy lets it be called
for. -/
def tells (receiver : Value) (name : String) (type : CallType) (t : State) : Bool :=
  let check (m : Method) := halted (checkVisibility m receiver name type t)
  check { r.copied with owner := r.original.owner, visibility := r.original.visibility } !=
    check r.copied

/-- A method that the class inherits was looked up, and another one came to be found above the class. -/
def outdated (library : Library) (found : Option MethodId) : Bool :=
  found == some r.copy && decide r.IsInherited &&
    library.searchAbove r.cls r.name != some r.source

section frames

variable (lambdas : Target → Bool) (frame : Frame)

/-- The copy of an inherited method runs in the frame, or a closure that was made where it runs. Of the
lambdas that are made there it is known what they are aimed at. -/
def isOwn : Bool :=
  decide r.IsInherited && frame.cls == some r.cls && frame.name == some r.name &&
    (frame.jumpTarget == r.copied.aim || frame.jumpTarget.any lambdas)

/-- A return in the frame is aimed at the one method where only the other one runs. -/
def strays (stack : FrameStack) : Bool :=
  frame.jumpTarget.any fun target =>
    r.targets.contains target && r.targets.any stack.isActive && !stack.isActive target

end frames

/-- What code does in its frame. -/
def underFrame (holds : Frame → Bool) (t : State) : Bool :=
  match t.context.stack.current with
  | .ok frame => holds frame
  | .error _ => false

/-- Against what tells the copy from the original: calls that only one of them lets through, returns from
the one where only the other one runs, and returns from the one that would leave the other. If the
method is inherited, also against super calls and definitions in frames of the copy, and against looking
it up when the class would inherit another one. -/
def precaution (fault : Fault) (lambdas : Target → Bool) : Precaution where
  fault
  bars
    | .call receiver name _ _ type, t =>
      let found := t.shared.library.findMethod receiver name
      found == some r.copy && r.tells receiver name type t || r.outdated t.shared.library found
    | .methodRef name, t => underFrame (fun frame =>
        r.outdated t.shared.library (t.shared.library.findMethod frame.self name)) t
    | .superCall, t => underFrame (fun frame => r.isOwn lambdas frame ||
        r.outdated t.shared.library (t.shared.library.superMethod frame)) t
    | .define .., t => underFrame (r.isOwn lambdas) t
    | .makeProc _ .lambda, t =>
      underFrame (r.isOwn lambdas) t && !lambdas ⟨t.shared.nextTarget⟩
    | .doReturn _, t => underFrame (r.strays · t.context.stack) t
    | _, _ => false
  barsChange cls name t := underFrame (r.isOwn lambdas) t ||
    r.outdated t.shared.library (t.shared.library.searchMethod cls name)
  barsNew cls t := r.outdated t.shared.library (t.shared.library.searchMethod cls "initialize")
  barsExit id target := (id == r.source || id == r.copy) && r.targets.contains target

variable (fault : Fault) (lambdas : Target → Bool)

/-- The copy stands for the original. -/
def restored : Recasting where
  cls := r.cls
  name := r.name
  copy := r.copy
  copyTarget := r.copyTarget
  copyVisibility := r.visibility
  aim := r.copied.aim
  lambdas
  original := r.source
  originalTarget := r.original.target
  owner := r.original.owner
  visibility := r.original.visibility
  method := merged r.copy r.source
  target target := ⟨merged r.copyTarget.serial r.original.target.serial target.serial⟩
  precaution := r.precaution fault lambdas

/-- The copy stands for itself. -/
def reflexive : Recasting where
  cls := r.cls
  name := r.name
  copy := r.copy
  copyTarget := r.copyTarget
  copyVisibility := r.visibility
  aim := r.copied.aim
  lambdas
  original := r.copy
  originalTarget := r.copyTarget
  owner := r.cls
  visibility := r.visibility
  method := id
  target := id
  precaution := r.precaution fault lambdas

/-- The class has the method, or the nearest class above that has one of that name. -/
structure IsSound (first : Nat) (r : Reissue) : Prop where
  positive : 0 < first
  coherent : r.shared.Coherent first
  found : r.shared.library.searchMethod r.cls r.name = some r.source

section precaution

variable {r fault lambdas} {t : State}

theorem underFrame_ok {holds : Frame → Bool} {frame : Frame}
    (current : t.context.stack.current = .ok frame) : underFrame holds t = holds frame := by
  rw [underFrame, current]

theorem runsOwn_of (own : (r.restored fault lambdas).RunsOwn t) :
    underFrame (r.isOwn lambdas) t = true := by
  obtain ⟨inherits, frame, current, under, called, aimed⟩ := own
  have isInherited : r.IsInherited := inherits
  have aims : (frame.jumpTarget == r.copied.aim || frame.jumpTarget.any lambdas) = true := by
    obtain same | ⟨target, same, known⟩ := aimed
    · exact Bool.or_eq_true_iff.2 (.inl (beq_iff_eq.2 same))
    · exact Bool.or_eq_true_iff.2 (.inr (by rw [same]; exact known))
  rw [underFrame_ok current]
  simp [isOwn, isInherited, under, called, aims, restored]

theorem tells_of {receiver : Value} {name : String} {type : CallType}
    (tells : (r.restored fault lambdas).Tells receiver name type t) :
    r.tells receiver name type t = true :=
  bne_iff_ne.2 tells

theorem outdated_of {library : Library} {found : Option MethodId} (copied : found = some r.copy)
    (outdated : (r.restored fault lambdas).Outdated library) : r.outdated library found = true := by
  obtain ⟨inherits, other⟩ := outdated
  have isInherited : r.IsInherited := inherits
  have other : (library.searchAbove r.cls r.name != some r.source) = true := bne_iff_ne.2 other
  simp [Reissue.outdated, copied, isInherited, other]

theorem strays_of {c : Recasting} {frame : Frame} {target active : Target}
    (ambiguous : ∀ {target}, c.Ambiguous target → target ∈ r.targets)
    (aimed : frame.jumpTarget = some target) (same : c.Ambiguous target) (other : c.Ambiguous active)
    (runs : t.context.stack.isActive active = true) (gone : t.context.stack.isActive target = false) :
    r.strays frame t.context.stack = true := by
  have some : r.targets.any t.context.stack.isActive = true :=
    List.any_eq_true.2 ⟨active, ambiguous other, runs⟩
  simp [strays, aimed, some, gone, ambiguous same]

end precaution

namespace IsSound

variable {r} {first : Nat} (sound : r.IsSound first)
include sound

/-- The class has the method or it does not, and then the method belongs to another class. -/
theorem place : ¬r.IsInherited ∧ r.shared.library.ownMethod r.cls r.name = some r.source ∨
    r.IsInherited ∧ r.shared.library.ownMethod r.cls r.name = none ∧
      r.shared.library.searchAbove r.cls r.name = some r.source := by
  have tidy := sound.coherent.tidy
  have found := sound.found
  rw [Library.searchMethod, Library.ancestors, List.findSome?_cons] at found
  cases own : r.shared.library.ownMethod r.cls r.name with
  | some id =>
    rw [own] at found
    cases found
    exact .inl ⟨not_not_intro (tidy.owns _ _ _ (.inl own)).2, rfl⟩
  | none =>
    rw [own] at found
    refine .inr ⟨fun owner => ?_, rfl, found⟩
    obtain ⟨other, above, own⟩ := List.exists_of_findSome?_eq_some found
    have same : other = r.cls := (tidy.owns _ _ _ (.inl own)).2.symm.trans owner
    exact (List.nodup_cons.1 (tidy.ancestors_nodup r.cls)).1 (same ▸ above)

theorem source_lt : r.source < r.copy := by
  obtain ⟨cls, -, own⟩ := List.exists_of_findSome?_eq_some sound.found
  exact (sound.coherent.tidy.owns cls _ _ (.inl own)).1

theorem target_given :
    first ≤ r.original.target.serial ∧ r.original.target.serial < r.copyTarget.serial :=
  sound.coherent.numbered.method_given sound.source_lt

theorem target_positive : 0 < r.original.target.serial :=
  Nat.lt_of_lt_of_le sound.positive sound.target_given.1

variable {fault : Fault} {lambdas : Target → Bool}

omit sound in
/-- What was given out before the copy was made stays as it is. -/
theorem target_of_given {target : Target} (given : target.serial < r.shared.nextTarget) :
    (r.restored fault lambdas).target target = target :=
  congrArg Target.mk (merged_of_lt given)

theorem ambiguous_iff (target : Target) : (r.restored fault lambdas).Ambiguous target ↔ target ∈ r.targets := by
  have same : (r.restored fault lambdas).Ambiguous target ↔
      merged r.copyTarget.serial r.original.target.serial target.serial = r.original.target.serial :=
    Target.serial_eq.symm
  rw [same, merged_eq_kept sound.target_given.2, Target.serial_eq, Target.serial_eq]
  simp [targets]

theorem restored_kept : (r.restored fault lambdas).IsKept where
  copy := merged_gone
  original _ := merged_of_lt sound.source_lt
  next := merged_succ
  method_lt := merged_lt sound.source_lt
  copyTarget := (sound.ambiguous_iff _).2 (.tail _ (.head _))
  zero := target_of_given (Nat.lt_of_le_of_lt (Nat.zero_le _) sound.target_given.2)
  positive same := Nat.ne_of_gt sound.target_positive (congrArg Target.serial same)
  nextTarget after := congrArg Target.mk (merged_succ after)
  target_lt after := (merged_lt sound.target_given.2 after).2
  alone apart other same := by
    refine Target.serial_eq.1 (merged_alone sound.target_given.2 ?_ (congrArg Target.serial same))
    exact mt Target.serial_eq.1 apart

theorem restored_careful : (r.restored fault lambdas).IsCareful where
  call {t receiver name args block type} found either := by
    obtain tells | outdated := either
    · have copied : t.shared.library.findMethod receiver name = some r.copy := found
      simp [restored, precaution, copied, tells_of tells]
    · simp [restored, precaution, outdated_of found outdated]
  methodRef current found outdated := (underFrame_ok current).trans (outdated_of found outdated)
  superOwn own := by
    have runs := runsOwn_of own
    obtain ⟨-, frame, current, -⟩ := own
    rw [underFrame_ok current] at runs
    simp [restored, precaution, underFrame_ok current, runs]
  superAbove {t frame cls name} current under called found outdated := by
    have above : t.shared.library.superMethod frame = some r.copy := by
      rw [Library.superMethod, under, called]
      exact found
    simp [restored, precaution, underFrame_ok current, outdated_of above outdated]
  define := runsOwn_of
  lambda own unknown := Bool.and_eq_true_iff.2 ⟨runsOwn_of own, congrArg not unknown⟩
  doReturn current aimed ambiguous other active gone :=
    (underFrame_ok current).trans (strays_of (sound.ambiguous_iff _).1 aimed ambiguous other active gone)
  changeOwn own := Bool.or_eq_true_iff.2 (.inl (runsOwn_of own))
  change found outdated := Bool.or_eq_true_iff.2 (.inr (outdated_of found outdated))
  new := outdated_of
  exits copied same := by
    have either := (merged_eq_kept sound.source_lt).1 copied
    have target := (sound.ambiguous_iff _).1 same
    simp [restored, precaution, either, target]

end IsSound

section reflexive

variable {r fault lambdas}

theorem reflexive_kept {first : Nat} (sound : r.IsSound first) : (r.reflexive fault lambdas).IsKept where
  copy := rfl
  original _ := rfl
  next _ := rfl
  method_lt _ := Iff.rfl
  copyTarget := rfl
  zero := rfl
  positive same := by
    have none : r.copyTarget.serial = 0 := congrArg Target.serial same
    exact Nat.not_lt_zero _ (none ▸ sound.target_given.2)
  nextTarget _ := rfl
  target_lt _ := id
  alone _ _ := id

/-- Nothing is told from itself. -/
theorem reflexive_careful : (r.reflexive fault lambdas).IsCareful where
  call _ either := by
    obtain tells | outdated := either
    · exact absurd rfl tells
    · exact absurd rfl outdated.1
  methodRef _ _ outdated := absurd rfl outdated.1
  superOwn own := absurd rfl own.1
  superAbove _ _ _ _ outdated := absurd rfl outdated.1
  define own := absurd rfl own.1
  lambda own := absurd rfl own.1
  doReturn {t _ target active _} _ _ same other runs gone := by
    have alike : active = target := Eq.trans other same.symm
    rw [alike, gone] at runs
    cases runs
  changeOwn own := absurd rfl own.1
  change _ outdated := absurd rfl outdated.1
  new _ outdated := absurd rfl outdated.1
  exits copied same := by
    obtain rfl : _ = r.copy := copied
    obtain rfl : _ = r.copyTarget := same
    simp [reflexive, precaution, targets]

end reflexive

section library

theorem own_after (cls : ClassId) (name : String) :
    r.after.library.ownMethod cls name =
      if (r.cls = cls ∧ cls < r.shared.library.classes.size) ∧ r.name = name then some r.copy
      else r.shared.library.ownMethod cls name :=
  Library.ownMethod_defineMethod _ cls name

theorem ownSingleton_after (cls : ClassId) (name : String) :
    r.after.library.ownSingleton cls name = r.shared.library.ownSingleton cls name :=
  Library.ownSingleton_defineMethod _ cls name

theorem method_after (id : MethodId) : r.after.library.method id =
    if id = r.copy then r.copied else r.shared.library.method id :=
  Library.method_addMethod r.shared.library r.copied id

theorem method_copy : r.after.library.method r.copy = r.copied :=
  (r.method_after r.copy).trans (if_pos rfl)

theorem method_other {id : MethodId} (other : id ≠ r.copy) :
    r.after.library.method id = r.shared.library.method id :=
  (r.method_after id).trans (if_neg other)

theorem copied_plain : r.copied.plain = r.copied :=
  Method.plain_of_body (m := r.original) rfl

/-- But for its owner, its visibility and its identity, the copy is the original. -/
theorem original_plain : { r.copied with
    target := r.original.target, owner := r.original.owner, visibility := r.original.visibility } =
      r.original.plain :=
  rfl

theorem size_after : r.after.library.methods.size = r.copy + 1 :=
  Array.size_push ..

theorem copy_lt : r.copy < r.after.library.methods.size := by
  rw [size_after]
  exact Nat.lt_succ_self _

namespace IsSound

variable {r} {first : Nat} (sound : r.IsSound first)
include sound

theorem own_lt {cls : ClassId} {name : String} {id : MethodId}
    (own : r.shared.library.ownMethod cls name = some id ∨ r.shared.library.ownSingleton cls name = some id) :
    id < r.copy :=
  (sound.coherent.tidy.owns cls name id own).1

theorem own_copy {cls : ClassId} {name : String}
    (own : r.after.library.ownMethod cls name = some r.copy) : cls = r.cls ∧ name = r.name := by
  rw [own_after] at own
  split at own
  · next here => exact ⟨here.1.1.symm, here.2.symm⟩
  · exact absurd (sound.own_lt (.inl own)) (Nat.lt_irrefl _)

theorem singleton_ne {cls : ClassId} {name : String} :
    r.after.library.ownSingleton cls name ≠ some r.copy := by
  intro own
  rw [ownSingleton_after] at own
  exact Nat.lt_irrefl _ (sound.own_lt (.inr own))

theorem tidy : r.after.library.Tidy := by
  refine (sound.coherent.tidy.addMethod r.copied).defineMethod ⟨?_, ?_⟩ r.name
  · rw [Library.addMethod, Array.size_push]
    exact Nat.lt_succ_self _
  · rw [Library.method_addMethod]
    exact congrArg Method.owner (if_pos rfl)

theorem keeps : r.after.Coherent first where
  numbered := by
    have added : (r.shared.addMethod fun target =>
        { r.original.renewed target with owner := r.cls, visibility := r.visibility }).2.Numbered first :=
      sound.coherent.numbered.addMethod fun _ => rfl
    exact added.of_eq rfl rfl rfl
  tidy := sound.tidy
  faithful := by
    refine ⟨sound.coherent.faithful.backend, fun id => ?_⟩
    rw [method_after]
    split
    · exact Method.faithful_of_plain (r.copied_plain)
    · exact sound.coherent.faithful.methods id
  known {id method name} inside own := by
    rw [size_after]
    exact Nat.lt_succ_of_lt (sound.coherent.known inside own)

theorem method_given (id : MethodId) : (r.shared.library.method id).target.serial < r.shared.nextTarget := by
  by_cases inside : id < r.shared.library.methods.size
  · exact (sound.coherent.numbered.method_given inside).2
  · rw [Library.method_outside (Nat.le_of_not_lt inside)]
    exact Nat.lt_of_le_of_lt (Nat.zero_le _) sound.target_given.2

omit sound in
theorem method_ne {id : MethodId} (other : id ≠ r.copy) :
    r.shared.library.method ((r.restored fault lambdas).method id) = r.shared.library.method id := by
  rcases Nat.lt_or_gt_of_ne other with before | after
  · exact congrArg r.shared.library.method (merged_of_lt before)
  · have same : (r.restored fault lambdas).method id = id - 1 := merged_of_gt after
    rw [same, Library.method_outside (Nat.le_of_lt after),
      Library.method_outside (Nat.le_sub_one_of_lt after)]

theorem not_ambiguous {target : Target} (given : target.serial < r.shared.nextTarget)
    (other : target ≠ r.original.target) : ¬(r.restored fault lambdas).Ambiguous target := by
  rw [sound.ambiguous_iff]
  have fresh : target ≠ r.copyTarget := fun same => Nat.ne_of_lt given (congrArg Target.serial same)
  simp [targets, other, fresh]

theorem zero_not_ambiguous : ¬(r.restored fault lambdas).Ambiguous ⟨0⟩ :=
  (sound.restored_kept).zero_apart

/-- The class has its copy for the method that it had, or for none. -/
theorem own_restored (cls : ClassId) (name : String) : r.shared.library.ownMethod cls name =
    (r.after.library.ownMethod cls name).bind (r.restored fault lambdas).found := by
  rw [own_after]
  split
  · next here =>
    obtain ⟨⟨rfl, -⟩, rfl⟩ := here
    obtain ⟨has, own⟩ | ⟨inherits, none, -⟩ := sound.place
    · rw [own]
      exact ((if_neg fun copied => has copied.2).trans (congrArg some merged_gone)).symm
    · rw [none]
      exact (if_pos ⟨rfl, inherits⟩).symm
  · cases own : r.shared.library.ownMethod cls name with
    | none => rfl
    | some id =>
      have before := sound.own_lt (.inl own)
      refine ((if_neg fun copied => Nat.ne_of_lt before copied.1).trans ?_).symm
      exact congrArg some (merged_of_lt before)

/-- Beside the engine with the copy, the one without it. -/
theorem restored_libraries : (r.restored fault lambdas).Libraries r.shared.library r.after.library where
  size := (Array.size_modify ..).symm
  shape id := by
    have same : r.after.library.cls id = _ := Library.cls_modify _ r.cls id _
    rw [same]
    split <;> rfl
  constants := rfl
  own := sound.own_restored fault lambdas
  only := sound.own_copy
  singletons cls name := by
    rw [ownSingleton_after]
    cases own : r.shared.library.ownSingleton cls name with
    | none => rfl
    | some id => exact congrArg some (merged_of_lt (sound.own_lt (.inr own))).symm
  never _ _ := sound.singleton_ne
  methods := by
    rw [size_after]
    exact (merged_of_gt (Nat.lt_succ_self _)).symm
  copied := r.copy_lt
  method id := by
    by_cases copied : id = r.copy
    · subst copied
      have source : (r.restored fault lambdas).method r.copy = r.source := merged_gone
      have target : (r.restored fault lambdas).target r.copied.target = r.original.target :=
        congrArg Target.mk merged_gone
      refine Eq.trans ?_ ((r.restored fault lambdas).recast_copy _).symm
      rw [source, method_copy, copied_plain, target]
      exact r.original_plain.symm
    · rw [method_other _ copied, Recasting.recast_ne _ copied, method_ne fault lambdas copied]
      exact congrArg (fun target => { (r.shared.library.method id).plain with target })
        (target_of_given (sound.method_given id)).symm
  owned := congrArg Method.owner r.method_copy
  visible := congrArg Method.visibility r.method_copy
  aimed := congrArg Method.aim r.method_copy
  apart id other := by
    have new : id ≠ r.copy := fun copied => other (copied ▸ merged_gone)
    rw [method_other _ new]
    by_cases inside : id < r.shared.library.methods.size
    · refine sound.not_ambiguous fault lambdas (sound.coherent.numbered.method_given inside).2
        fun same => other ?_
      have source := sound.coherent.numbered.method_apart inside sound.source_lt same
      exact (merged_of_lt inside).trans source
    · rw [Library.method_outside (Nat.le_of_not_lt inside)]
      exact sound.zero_not_ambiguous fault lambdas
  layered := sound.tidy.toLayered

/-- Beside itself. -/
theorem reflexive_libraries : (r.reflexive fault lambdas).Libraries r.after.library r.after.library where
  size := rfl
  shape id := rfl
  constants := rfl
  own cls name := by
    cases r.after.library.ownMethod cls name with
    | none => rfl
    | some id => exact (if_neg fun copied => copied.2 rfl).symm
  only := sound.own_copy
  singletons _ _ := (Option.map_id' ..).symm
  never _ _ := sound.singleton_ne
  methods := rfl
  copied := r.copy_lt
  method id := by
    by_cases copied : id = r.copy
    · subst copied
      refine Eq.trans ?_ ((r.reflexive fault lambdas).recast_copy _).symm
      rw [method_copy, copied_plain]
      exact (congrArg Method.plain r.method_copy).trans r.copied_plain
    · exact ((r.reflexive fault lambdas).recast_ne copied (r.after.library.method id).plain).symm
  owned := congrArg Method.owner r.method_copy
  visible := congrArg Method.visibility r.method_copy
  aimed := congrArg Method.aim r.method_copy
  apart id other := by
    have given := sound.method_given id
    have new : id ≠ r.copy := other
    rw [method_other _ new]
    exact fun same => Nat.ne_of_lt given (congrArg Target.serial same)
  layered := sound.tidy.toLayered

end IsSound

end library

section states

namespace IsSound

variable {r fault lambdas} {first : Nat} (sound : r.IsSound first)

theorem frame_kept {frame : Frame} (gave : r.shared.Gave first frame.identities) :
    frame.renamed (r.restored fault lambdas).target = frame := by
  have kept {target : Option Target} (part : target.toList ⊆ frame.identities) :
      target.map (r.restored fault lambdas).target = target := by
    cases target with
    | none => rfl
    | some target => exact congrArg some (target_of_given (gave target (part (.head _))).2)
  unfold Frame.renamed
  rw [kept (List.subset_append_left ..), kept (List.subset_append_right ..)]

include sound

theorem closure_given (id : ClosureId) : (r.shared.closure id).target.serial < r.shared.nextTarget := by
  by_cases inside : id < r.shared.closures.size
  · exact (sound.coherent.numbered.closure_given inside _ (.head _)).2
  · rw [Shared.closure_outside (Nat.le_of_not_lt inside)]
    exact Nat.lt_of_le_of_lt (Nat.zero_le _) sound.target_given.2

theorem closure_method {id : ClosureId} {method : MethodId} {name : String}
    (own : (r.shared.closure id).body = .method method name) : method < r.copy := by
  by_cases inside : id < r.shared.closures.size
  · exact sound.coherent.known inside own
  · rw [Shared.closure_outside (Nat.le_of_not_lt inside)] at own
    cases own
    exact Nat.lt_of_le_of_lt (Nat.zero_le _) sound.source_lt

theorem restored_closures (id : ClosureId) :
    (r.restored fault lambdas).Closures (r.shared.closure id) (r.shared.closure id) where
  body := by
    cases own : (r.shared.closure id).body with
    | literal literal => rfl
    | method method name =>
      exact congrArg (ClosureBody.method · name) (merged_of_lt (sound.closure_method own)).symm
  self := rfl
  visibility := rfl
  env := rfl
  target := (target_of_given (sound.closure_given id)).symm
  kind := rfl
  captured _ := by
    have kept : (r.shared.closure id).binding.within.renamed (r.restored fault lambdas).target = _ :=
      frame_kept (sound.coherent.numbered.captured_given id)
    exact ⟨_, kept.symm, .inl rfl⟩

theorem closure_sound (id : ClosureId) : (r.restored fault lambdas).Sound (r.shared.closure id) := by
  refine ⟨?_, fun own => absurd (sound.closure_method own) (Nat.lt_irrefl _)⟩
  by_cases inside : id < r.shared.closures.size
  · exact sound.not_ambiguous fault lambdas (sound.closure_given id)
      (sound.coherent.numbered.closure_apart inside sound.source_lt)
  · rw [Shared.closure_outside (Nat.le_of_not_lt inside)]
    exact sound.zero_not_ambiguous fault lambdas

variable {context : Context} (gave : r.shared.Gave first context.identities)
include gave

omit sound in
/-- No frame holds the identity of the copy. -/
theorem restored_frame {frame : Frame} (member : frame ∈ context.stack.frames) :
    frame.renamed (r.restored fault lambdas).target = frame :=
  frame_kept (gave.subset fun _ held => List.mem_append_left _ (List.mem_flatMap.2 ⟨frame, member, held⟩))

theorem restored_states : (r.restored fault lambdas).States
    (context.stack.frames.tail, context.stack.frames.tail) ⟨r.shared, context⟩ ⟨r.after, context⟩ where
  library := sound.restored_libraries fault lambdas
  left := sound.coherent.faithful
  right := sound.keeps.faithful
  memory := rfl
  nextObject := rfl
  nextTarget := congrArg Target.mk (merged_of_gt (Nat.lt_succ_self r.shared.nextTarget)).symm
  given := Nat.lt_succ_self r.shared.nextTarget
  monitor := rfl
  size := rfl
  closures := sound.restored_closures
  sound := sound.closure_sound
  id := rfl
  scopes := rfl
  lastCall := rfl
  globals := rfl
  main := rfl
  live := by
    have kept : context.liveLiterals.map (r.restored fault lambdas).target = context.liveLiterals.map id :=
      List.map_congr_left fun target member =>
        target_of_given (gave target (List.mem_append_right _ member)).2
    exact (kept.trans (List.map_id _)).symm
  limit := rfl
  alike := List.forall₂_same.2 fun frame member =>
    ⟨rfl, (congrArg Frame.activation (restored_frame gave member)).symm⟩
  outer := rfl
  outer' := rfl
  innermost := by
    intro frame first _ same
    obtain rfl := Option.mem_unique first same
    exact ⟨frame.cls, (restored_frame gave (List.mem_of_mem_head? first)).symm, .inl rfl⟩

omit gave in
theorem reflexive_states (context : Context) : (r.reflexive fault lambdas).States
    (context.stack.frames.tail, context.stack.frames.tail) ⟨r.after, context⟩ ⟨r.after, context⟩ where
  library := sound.reflexive_libraries fault lambdas
  left := sound.keeps.faithful
  right := sound.keeps.faithful
  memory := rfl
  nextObject := rfl
  nextTarget := rfl
  given := Nat.lt_succ_self r.shared.nextTarget
  monitor := rfl
  size := rfl
  closures id := by
    refine ⟨?_, rfl, rfl, rfl, rfl, rfl, fun _ => ⟨_, (congrFun Frame.renamed_id _).symm, .inl rfl⟩⟩
    change (r.shared.closure id).body = (r.reflexive fault lambdas).body (r.shared.closure id).body
    cases (r.shared.closure id).body <;> rfl
  sound id :=
    ⟨fun same => Nat.ne_of_lt (sound.closure_given id) (congrArg Target.serial same),
      fun own => absurd (sound.closure_method own) (Nat.lt_irrefl _)⟩
  id := rfl
  scopes := rfl
  lastCall := rfl
  globals := rfl
  main := rfl
  live := (List.map_id _).symm
  limit := rfl
  alike := List.forall₂_same.2 fun frame _ =>
    ⟨rfl, (congrArg Frame.activation (congrFun Frame.renamed_id frame)).symm⟩
  outer := rfl
  outer' := rfl
  innermost := by
    intro frame first _ same
    obtain rfl := Option.mem_unique first same
    exact ⟨frame.cls, (congrFun Frame.renamed_id frame).symm, .inl rfl⟩

end IsSound

end states

end Reissue

end CallEngine
