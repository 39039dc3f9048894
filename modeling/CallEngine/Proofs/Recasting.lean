import CallEngine.Proofs.Ownership
import CallEngine.Proofs.Promotion
/-! Two engines side by side. A class of the second one has a copy of a method of its own, which in the
first one is cast as another method, that of a class above it perhaps. Identities of the second engine
stand for identities of the first. -/
namespace CallEngine

/-- What a return in the body is aimed at. -/
def Method.aim (m : Method) : Option Target :=
  match m.body with
  | .builtin _ => none
  | _ => some m.target

theorem Method.aim_plain (m : Method) : m.plain.aim = m.aim := by
  obtain ⟨owner, visibility, config, target, body⟩ := m
  cases body <;> rfl

/-- What a run is not to do. A fault stops it there. -/
structure Precaution where
  fault : Fault
  /-- No body is to do this. -/
  bars : Act → State → Bool
  /-- The class is not to get a visibility for this name. -/
  barsChange : ClassId → String → State → Bool
  /-- The class is not to be instantiated. -/
  barsNew : ClassId → State → Bool
  /-- No call of the method is to be left by a return to the target. -/
  barsExit : MethodId → Target → Bool

structure Recasting where
  /-- The class that has the copy, under this name. -/
  cls : ClassId
  name : String
  copy : MethodId
  copyTarget : Target
  copyVisibility : Visibility
  /-- What returns from the copy are aimed at. -/
  aim : Option Target
  /-- What the lambdas are aimed at that are made where the copy runs. -/
  lambdas : Target → Bool
  /-- The method that the copy is cast as. -/
  original : MethodId
  originalTarget : Target
  owner : ClassId
  visibility : Visibility
  method : MethodId → MethodId
  target : Target → Target
  precaution : Precaution

namespace Library

variable (library : Library) {cls : ClassId} {name : String} {id : MethodId}

theorem ownMethod_defineMethod (other : ClassId) (name' : String) :
    (library.defineMethod cls name id).ownMethod other name' =
      if (cls = other ∧ other < library.classes.size) ∧ name = name' then some id
      else library.ownMethod other name' := by
  simp only [ownMethod, defineMethod, cls_modify]
  by_cases here : cls = other ∧ other < library.classes.size
  · simp [here]
  · simp [here]

theorem ownSingleton_defineMethod (other : ClassId) (name' : String) :
    (library.defineMethod cls name id).ownSingleton other name' =
      library.ownSingleton other name' := by
  simp only [ownSingleton, defineMethod, cls_modify]
  split <;> rfl

theorem ownMethod_defineSingleton (other : ClassId) (name' : String) :
    (library.defineSingleton cls name id).ownMethod other name' = library.ownMethod other name' := by
  simp only [ownMethod, defineSingleton, cls_modify]
  split <;> rfl

theorem ownSingleton_defineSingleton (other : ClassId) (name' : String) :
    (library.defineSingleton cls name id).ownSingleton other name' =
      if (cls = other ∧ other < library.classes.size) ∧ name = name' then some id
      else library.ownSingleton other name' := by
  simp only [ownSingleton, defineSingleton, cls_modify]
  by_cases here : cls = other ∧ other < library.classes.size
  · simp [here]
  · simp [here]

section register

variable {added : Class} (bare : added.methods = {} ∧ added.singletons = {})
include bare

theorem ownMethod_register (other : ClassId) (name' : String) :
    (library.register added).2.ownMethod other name' = library.ownMethod other name' := by
  simp only [ownMethod, cls_register]
  split
  · next new =>
    rw [new, bare.1, cls_outside (Nat.le_refl _)]
    rfl
  · rfl

theorem ownSingleton_register (other : ClassId) (name' : String) :
    (library.register added).2.ownSingleton other name' = library.ownSingleton other name' := by
  simp only [ownSingleton, cls_register]
  split
  · next new =>
    rw [new, bare.2, cls_outside (Nat.le_refl _)]
    rfl
  · rfl

end register

end Library

/-- The frame that was captured, of the class that was. -/
def Binding.within (binding : Binding) : Frame := { binding.frame with cls := binding.cls }

namespace Recasting

variable (c : Recasting)

/-- The class has the method from one above it. -/
def Inherits : Prop := c.owner ≠ c.cls

instance : Decidable c.Inherits := inferInstanceAs (Decidable (c.owner ≠ c.cls))

/-- What is looked up where the second engine finds the method. The first one looks further up where the
second one has the copy of an inherited method. -/
def found (id : MethodId) : Option MethodId :=
  if id = c.copy ∧ c.Inherits then none else some (c.method id)

/-- The first engine does not tell returns to the copy from returns to the original. -/
def Ambiguous (target : Target) : Prop := c.target target = c.originalTarget

/-- A frame of the copy, or of a closure that was made where the copy runs. -/
def IsOwn (frame : Frame) : Prop :=
  frame.cls = some c.cls ∧ frame.name = some c.name ∧
    (frame.jumpTarget = c.aim ∨ ∃ target, frame.jumpTarget = some target ∧ c.lambdas target)

/-- The copy runs in frames of its class, where the original runs in frames of its owner. -/
def Owners (frame' : Frame) (cls : Option ClassId) : Prop :=
  cls = frame'.cls ∨ c.Inherits ∧ cls = some c.owner ∧ c.IsOwn frame'

def Frames (frame frame' : Frame) : Prop :=
  ∃ cls, frame = { frame'.renamed c.target with cls } ∧ c.Owners frame' cls

/-- Under the identities of the first engine. -/
def body : ClosureBody → ClosureBody
  | .literal literal => .literal literal
  | .method id name => .method (c.method id) name

structure Closures (closure closure' : Closure) : Prop where
  body : closure.body = c.body closure'.body
  self : closure.binding.self = closure'.binding.self
  visibility : closure.binding.visibility = closure'.binding.visibility
  env : closure.binding.env = closure'.binding.env
  target : closure.target = c.target closure'.target
  kind : closure.kind = closure'.kind
  /-- Methods do not run in the frame that was captured. -/
  captured {literal : Literal StaticId Node} : closure'.body = .literal literal →
    c.Frames closure.binding.within closure'.binding.within

/-- What the closure claims is aimed at itself, and the copy goes by its own name. -/
structure Sound (closure : Closure) : Prop where
  apart : ¬c.Ambiguous closure.target
  named {name : String} : closure.body = .method c.copy name → name = c.name

def request : Request → Request
  | .invoke id call => .invoke (c.method id) call
  | .yield id delivery => .yield id delivery

def Named : Request → Prop
  | .invoke id call => id = c.copy → call.name = c.name
  | .yield .. => True

/-- A method of the second engine as the first one has it. -/
def recast (id : MethodId) (m : Method) : Method :=
  if id = c.copy then
    { m with target := c.target m.target, owner := c.owner, visibility := c.visibility }
  else { m with target := c.target m.target }

theorem recast_copy (m : Method) : c.recast c.copy m =
    { m with target := c.target m.target, owner := c.owner, visibility := c.visibility } :=
  if_pos rfl

theorem recast_ne {id : MethodId} (other : id ≠ c.copy) (m : Method) :
    c.recast id m = { m with target := c.target m.target } :=
  if_neg other

structure Libraries (library library' : Library) : Prop where
  size : library.classes.size = library'.classes.size
  shape (id : ClassId) : { library.cls id with methods := {}, singletons := {} } =
    { library'.cls id with methods := {}, singletons := {} }
  constants : library.constants = library'.constants
  own (cls : ClassId) (name : String) :
    library.ownMethod cls name = (library'.ownMethod cls name).bind c.found
  /-- The copy is nowhere else. -/
  only {cls : ClassId} {name : String} : library'.ownMethod cls name = some c.copy →
    cls = c.cls ∧ name = c.name
  singletons (cls : ClassId) (name : String) :
    library.ownSingleton cls name = (library'.ownSingleton cls name).map c.method
  never (cls : ClassId) (name : String) : library'.ownSingleton cls name ≠ some c.copy
  methods : library.methods.size = c.method library'.methods.size
  copied : c.copy < library'.methods.size
  method (id : MethodId) :
    (library.method (c.method id)).plain = c.recast id (library'.method id).plain
  owned : (library'.method c.copy).owner = c.cls
  visible : (library'.method c.copy).visibility = c.copyVisibility
  aimed : (library'.method c.copy).aim = c.aim
  apart (id : MethodId) : c.method id ≠ c.original → ¬c.Ambiguous (library'.method id).target
  layered : library'.Layered

/-- Above the class, which inherits the original, another method came to be found in its place. -/
def Outdated (library : Library) : Prop :=
  c.Inherits ∧ library.searchAbove c.cls c.name ≠ some c.original

/-- New identities are cast as new ones, and old ones as old ones. -/
structure IsKept : Prop where
  copy : c.method c.copy = c.original
  original : c.Inherits → c.method c.original = c.original
  next {id : MethodId} : c.copy < id → c.method (id + 1) = c.method id + 1
  method_lt {id bound : MethodId} : c.copy < bound → (c.method id < c.method bound ↔ id < bound)
  copyTarget : c.Ambiguous c.copyTarget
  zero : c.target ⟨0⟩ = ⟨0⟩
  positive : c.originalTarget ≠ ⟨0⟩
  nextTarget {n : Nat} : c.copyTarget.serial < n → c.target ⟨n + 1⟩ = ⟨(c.target ⟨n⟩).serial + 1⟩
  target_lt {target : Target} {n : Nat} : c.copyTarget.serial < n → target.serial < n →
    (c.target target).serial < (c.target ⟨n⟩).serial
  alone {target : Target} : ¬c.Ambiguous target → ∀ other, c.target other = c.target target → other = target

variable {c} in
theorem found_new {id : MethodId} (new : c.copy < id) : c.found id = some (c.method id) :=
  if_neg fun copied => Nat.ne_of_gt new copied.1

namespace IsKept

variable {c} (kept : c.IsKept)
include kept

theorem method_eq {id bound : MethodId} (new : c.copy < bound) :
    c.method id = c.method bound ↔ id = bound := by
  refine ⟨fun same => ?_, congrArg c.method⟩
  have before : ¬id < bound := fun less => Nat.ne_of_lt ((kept.method_lt new).2 less) same
  have after : id < bound + 1 := by
    rw [← kept.method_lt (Nat.lt_succ_of_lt new), same, kept.next new]
    exact Nat.lt_succ_self _
  exact Nat.le_antisymm (Nat.le_of_lt_succ after) (Nat.le_of_not_lt before)

/-- New identities are not ambiguous. -/
theorem fresh {n : Nat} (new : c.copyTarget.serial < n) : ¬c.Ambiguous ⟨n⟩ := by
  intro same
  have less := kept.target_lt new new
  rw [kept.copyTarget, same] at less
  exact Nat.lt_irrefl _ less

theorem zero_apart : ¬c.Ambiguous ⟨0⟩ := fun same => kept.positive (same.symm.trans kept.zero)

end IsKept

namespace Libraries

variable {c} {library library' : Library} (tied : c.Libraries library library')
include tied

theorem lineage (id : ClassId) : (library.cls id).lineage = (library'.cls id).lineage :=
  (congrArg Class.lineage (tied.shape id) :)

theorem isModule (id : ClassId) : (library.cls id).isModule = (library'.cls id).isModule :=
  (congrArg Class.isModule (tied.shape id) :)

theorem name (id : ClassId) : (library.cls id).name = (library'.cls id).name :=
  (congrArg Class.name (tied.shape id) :)

theorem ancestors (id : ClassId) : library.ancestors id = library'.ancestors id := by
  simp only [Library.ancestors, tied.lineage]

theorem inherits (id other : ClassId) : library.inherits id other = library'.inherits id other := by
  simp only [Library.inherits, tied.ancestors]

theorem constant (name : String) : library.constant name = library'.constant name := by
  simp only [Library.constant, tied.constants]

/-- A further copy of the copy may have another owner and another visibility. -/
theorem renewed (id : MethodId) (target : Target) : ∃ owner visibility,
    (id ≠ c.copy → owner = ((library'.method id).renewed target).owner) ∧
      (library.method (c.method id)).renewed (c.target target) =
        { (library'.method id).renewed target with target := c.target target, owner, visibility } := by
  have same : (library.method (c.method id)).renewed (c.target target) =
      (c.recast id (library'.method id).plain).renewed (c.target target) := by
    rw [← Method.plain_renewed, tied.method]
  rw [same, ← (library'.method id).plain_renewed]
  unfold recast
  split
  · next copied => exact ⟨c.owner, c.visibility, fun other => absurd copied other, rfl⟩
  · exact ⟨_, _, fun _ => rfl, rfl⟩

section lookup

/-- Only the copy of an inherited method is found in one engine and not in the other. -/
theorem own_map {cls : ClassId} {name : String}
    (other : ¬(c.Inherits ∧ library'.ownMethod cls name = some c.copy)) :
    library.ownMethod cls name = (library'.ownMethod cls name).map c.method := by
  rw [tied.own]
  cases own : library'.ownMethod cls name with
  | none => rfl
  | some id =>
    refine if_neg ?_
    rintro ⟨rfl, inherits⟩
    exact other ⟨inherits, own⟩

theorem findSome_map (line : List ClassId) (name : String)
    (other : ∀ cls ∈ line, ¬(c.Inherits ∧ library'.ownMethod cls name = some c.copy)) :
    line.findSome? (library.ownMethod · name) =
      (line.findSome? (library'.ownMethod · name)).map c.method := by
  induction line with
  | nil => rfl
  | cons cls line ih =>
    rw [List.findSome?_cons, List.findSome?_cons, tied.own_map (other cls (.head _)),
      ih fun other' member => other other' (.tail _ member)]
    cases library'.ownMethod cls name <;> rfl

theorem outside {cls : ClassId} (differs : cls ≠ c.cls) (name : String) :
    ¬(c.Inherits ∧ library'.ownMethod cls name = some c.copy) :=
  fun copied => differs (tied.only copied.2).1

variable (kept : c.IsKept)
include kept

/-- Where the second engine finds the copy of an inherited method, the first one finds the original, which
is to be the one above still. -/
theorem findSome {line : List ClassId} (nodup : line.Nodup)
    (whole : c.cls ∈ line → library'.ancestors c.cls <:+ line) (name : String)
    (lasts : line.findSome? (library'.ownMethod · name) = some c.copy → ¬c.Outdated library') :
    line.findSome? (library.ownMethod · name) =
      (line.findSome? (library'.ownMethod · name)).map c.method := by
  by_cases copied : c.cls ∈ line ∧ c.Inherits ∧ library'.ownMethod c.cls name = some c.copy
  · obtain ⟨member, inherits, own⟩ := copied
    obtain ⟨below, rfl⟩ := whole member
    obtain ⟨-, nodup, apart⟩ := List.nodup_append.1 nodup
    obtain ⟨last, -⟩ := List.nodup_cons.1 nodup
    have before := tied.findSome_map below name fun cls member =>
      tied.outside (apart cls member c.cls (.head _)) name
    have after := tied.findSome_map (library'.cls c.cls).lineage name
      fun cls member => tied.outside (fun same => absurd (same.subst member) last) name
    have skipped : library.ownMethod c.cls name = none := by
      rw [tied.own, own]
      exact if_pos ⟨rfl, inherits⟩
    rw [List.findSome?_append, Library.ancestors, List.findSome?_cons, own] at lasts
    rw [List.findSome?_append, List.findSome?_append, before, Library.ancestors, List.findSome?_cons,
      List.findSome?_cons, skipped, own, after]
    cases found : below.findSome? (library'.ownMethod · name) with
    | some id => rfl
    | none =>
      rw [found] at lasts
      have above : (library'.cls c.cls).lineage.findSome? (library'.ownMethod · name) =
          some c.original :=
        (tied.only own).2 ▸ Decidable.not_not.1 fun other => lasts rfl ⟨inherits, other⟩
      rw [above]
      exact congrArg some ((kept.original inherits).trans kept.copy.symm)
  · refine tied.findSome_map line name fun cls member found => copied ?_
    obtain ⟨rfl, -⟩ := tied.only found.2
    exact ⟨member, found⟩

theorem searchAbove (cls : ClassId) (name : String)
    (lasts : library'.searchAbove cls name = some c.copy → ¬c.Outdated library') :
    library.searchAbove cls name = (library'.searchAbove cls name).map c.method := by
  unfold Library.searchAbove
  rw [tied.lineage]
  refine tied.findSome kept (List.nodup_cons.1 (tied.layered.ancestors_nodup cls)).2 ?_ name lasts
  exact fun member => (tied.layered.ancestors_suffix member).2

theorem searchMethod (cls : ClassId) (name : String)
    (lasts : library'.searchMethod cls name = some c.copy → ¬c.Outdated library') :
    library.searchMethod cls name = (library'.searchMethod cls name).map c.method := by
  unfold Library.searchMethod
  rw [tied.ancestors]
  refine tied.findSome kept (tied.layered.ancestors_nodup cls) (fun member => ?_) name lasts
  rcases List.mem_cons.1 member with rfl | above
  · exact List.suffix_refl _
  · exact (tied.layered.ancestors_suffix above).2.trans (List.suffix_cons ..)

omit kept in
theorem searchSingleton (cls : ClassId) (name : String) :
    library.searchSingleton cls name = (library'.searchSingleton cls name).map c.method := by
  unfold Library.searchSingleton
  rw [tied.ancestors, List.map_findSome?]
  exact congrArg (List.findSome? · _) (funext fun other => tied.singletons other name)

theorem findMethod (receiver : Value) (name : String)
    (lasts : library'.findMethod receiver name = some c.copy → ¬c.Outdated library') :
    library.findMethod receiver name = (library'.findMethod receiver name).map c.method := by
  cases receiver with
  | cls id =>
    simp only [Library.findMethod] at lasts
    simp only [Library.findMethod, tied.searchSingleton]
    cases single : library'.searchSingleton id name with
    | some method => rfl
    | none =>
      rw [single] at lasts
      exact tied.searchMethod kept _ name lasts
  | _ => exact tied.searchMethod kept _ name lasts

omit kept in
/-- The copy is found under its own name only. -/
theorem search_name {line : List ClassId} {name : String}
    (found : line.findSome? (library'.ownMethod · name) = some c.copy) : name = c.name := by
  obtain ⟨cls, -, own⟩ := List.exists_of_findSome?_eq_some found
  exact (tied.only own).2

omit kept in
theorem find_name {receiver : Value} {name : String}
    (found : library'.findMethod receiver name = some c.copy) : name = c.name := by
  cases receiver with
  | cls id =>
    simp only [Library.findMethod] at found
    cases single : library'.searchSingleton id name with
    | none =>
      rw [single] at found
      exact tied.search_name found
    | some method =>
      rw [single] at found
      obtain ⟨cls, -, own⟩ := List.exists_of_findSome?_eq_some single
      cases found
      exact absurd own (tied.never cls name)
  | _ => exact tied.search_name found

end lookup

/-- Nothing but calls were counted. -/
theorem of_plain {later later' : Library} (same : later.plain = library.plain)
    (same' : later'.plain = library'.plain) : c.Libraries later later' := by
  have classes : later.classes = library.classes := (congrArg Library.classes same :)
  have classes' : later'.classes = library'.classes := (congrArg Library.classes same' :)
  have size : later.methods.size = library.methods.size := by
    simpa [Library.plain] using congrArg (fun library => library.methods.size) same
  have size' : later'.methods.size = library'.methods.size := by
    simpa [Library.plain] using congrArg (fun library => library.methods.size) same'
  have method (id : MethodId) : (later.method id).plain = (library.method id).plain := by
    rw [← Library.method_plain, same, Library.method_plain]
  have method' (id : MethodId) : (later'.method id).plain = (library'.method id).plain := by
    rw [← Library.method_plain, same', Library.method_plain]
  have cls (id : ClassId) : later.cls id = library.cls id := by simp only [Library.cls, classes]
  have cls' (id : ClassId) : later'.cls id = library'.cls id := by simp only [Library.cls, classes']
  constructor
  · rw [classes, classes', tied.size]
  · simpa only [cls, cls'] using tied.shape
  · exact (congrArg Library.constants same :).trans
      (tied.constants.trans (congrArg Library.constants same' :).symm)
  · simpa only [Library.ownMethod, cls, cls'] using tied.own
  · intro id name
    simpa only [Library.ownMethod, cls'] using @tied.only id name
  · simpa only [Library.ownSingleton, cls, cls'] using tied.singletons
  · simpa only [Library.ownSingleton, cls'] using tied.never
  · rw [size, size', tied.methods]
  · exact size' ▸ tied.copied
  · simpa only [method, method'] using tied.method
  · exact (congrArg Method.owner (method' c.copy) :).trans tied.owned
  · exact (congrArg Method.visibility (method' c.copy) :).trans tied.visible
  · rw [← Method.aim_plain, method', Method.aim_plain]
    exact tied.aimed
  · intro id other
    have target : (later'.method id).target = (library'.method id).target :=
      (congrArg Method.target (method' id) :)
    exact target ▸ tied.apart id other
  · exact tied.layered.of_lineage (fun id => by rw [cls']) (congrArg Library.constants same' :)
      (by rw [classes'])

section updates

theorem addMethod (kept : c.IsKept) {m m' : Method}
    (same : m.plain = { m'.plain with target := c.target m'.target })
    (apart : ¬c.Ambiguous m'.target) :
    c.Libraries (library.addMethod m).2 (library'.addMethod m').2 := by
  have new (id : MethodId) : c.method id = library.methods.size ↔ id = library'.methods.size := by
    rw [tied.methods]
    exact kept.method_eq tied.copied
  refine { tied with
    methods := ?_, copied := ?_, method := fun id => ?_, owned := ?_, visible := ?_, aimed := ?_,
    apart := fun id other => ?_,
    layered := tied.layered.of_lineage (fun _ => rfl) rfl rfl }
  · simp only [Library.addMethod, Array.size_push]
    rw [kept.next tied.copied, tied.methods]
  · simpa [Library.addMethod] using Nat.lt_succ_of_lt tied.copied
  · rw [Library.method_addMethod, Library.method_addMethod]
    by_cases here : id = library'.methods.size
    · rw [if_pos ((new id).2 here), if_pos here, recast, if_neg (here ▸ Nat.ne_of_gt tied.copied)]
      exact same
    · rw [if_neg (mt (new id).1 here), if_neg here]
      exact tied.method id
  · rw [Library.method_addMethod, if_neg (Nat.ne_of_lt tied.copied)]
    exact tied.owned
  · rw [Library.method_addMethod, if_neg (Nat.ne_of_lt tied.copied)]
    exact tied.visible
  · rw [Library.method_addMethod, if_neg (Nat.ne_of_lt tied.copied)]
    exact tied.aimed
  · rw [Library.method_addMethod]
    split
    · exact apart
    · exact tied.apart id other

/-- A new method comes into a class of both engines. -/
theorem defineMethod {id : MethodId} (new : c.copy < id) (cls : ClassId) (name : String) :
    c.Libraries (library.defineMethod cls name (c.method id)) (library'.defineMethod cls name id) := by
  refine { tied with
    size := ?_, shape := fun other => ?_, own := fun other name' => ?_, only := ?_
    singletons := ?_, never := ?_
    layered := tied.layered.modify cls fun _ => rfl }
  · simpa [Library.defineMethod] using tied.size
  · have shape := tied.shape other
    simp only [Library.defineMethod, Library.cls_modify, tied.size]
    split <;> exact shape
  · rw [Library.ownMethod_defineMethod, Library.ownMethod_defineMethod, tied.size]
    split
    · exact (found_new new).symm
    · exact tied.own other name'
  · intro other name' own
    rw [Library.ownMethod_defineMethod] at own
    split at own
    · cases own
      exact absurd new (Nat.lt_irrefl _)
    · exact tied.only own
  · simpa only [Library.ownSingleton_defineMethod] using tied.singletons
  · simpa only [Library.ownSingleton_defineMethod] using tied.never

theorem defineSingleton {id : MethodId} (new : c.copy < id) (cls : ClassId) (name : String) :
    c.Libraries (library.defineSingleton cls name (c.method id))
      (library'.defineSingleton cls name id) := by
  refine { tied with
    size := ?_, shape := fun other => ?_, own := ?_, only := ?_
    singletons := fun other name' => ?_, never := fun other name' own => ?_
    layered := tied.layered.modify cls fun _ => rfl }
  · simpa [Library.defineSingleton] using tied.size
  · have shape := tied.shape other
    simp only [Library.defineSingleton, Library.cls_modify, tied.size]
    split <;> exact shape
  · simpa only [Library.ownMethod_defineSingleton] using tied.own
  · intro other name' own
    rw [Library.ownMethod_defineSingleton] at own
    exact tied.only own
  · rw [Library.ownSingleton_defineSingleton, Library.ownSingleton_defineSingleton, tied.size]
    split
    · rfl
    · exact tied.singletons other name'
  · rw [Library.ownSingleton_defineSingleton] at own
    split at own
    · cases own
      exact Nat.lt_irrefl _ new
    · exact tied.never other name' own

theorem register {added : Class} (bare : added.methods = {} ∧ added.singletons = {})
    (under : added.lineage = [] ∨
      ∃ parent < library'.classes.size, added.lineage = library'.ancestors parent) :
    c.Libraries (library.register added).2 (library'.register added).2 where
  size := by simpa [Library.register] using tied.size
  shape id := by
    have shape := tied.shape id
    rw [Library.cls_register, Library.cls_register, tied.size]
    split
    · rfl
    · exact shape
  constants := by
    simp only [Library.register, tied.constants, tied.size]
  own cls name := by
    rw [Library.ownMethod_register _ bare, Library.ownMethod_register _ bare]
    exact tied.own cls name
  only own := by
    rw [Library.ownMethod_register _ bare] at own
    exact tied.only own
  singletons cls name := by
    rw [Library.ownSingleton_register _ bare, Library.ownSingleton_register _ bare]
    exact tied.singletons cls name
  never cls name := by
    rw [Library.ownSingleton_register _ bare]
    exact tied.never cls name
  methods := tied.methods
  copied := tied.copied
  method := tied.method
  owned := tied.owned
  visible := tied.visible
  aimed := tied.aimed
  apart := tied.apart
  layered := tied.layered.register under

theorem defineClass (name : String) {parent : ClassId} (inside : parent < library'.classes.size) :
    (library.defineClass name parent).1 = (library'.defineClass name parent).1 ∧
      c.Libraries (library.defineClass name parent).2 (library'.defineClass name parent).2 := by
  simp only [Library.defineClass, tied.ancestors]
  exact ⟨tied.size, tied.register ⟨rfl, rfl⟩ (.inr ⟨parent, inside, rfl⟩)⟩

/-- Both engines open the same class, or fail with the same error. -/
theorem openClass (name : String) (superclass : Option String) (isModule : Bool) :
    (library.openClass name superclass isModule).map Prod.fst =
        (library'.openClass name superclass isModule).map Prod.fst ∧
      c.Libraries (library.opened name superclass isModule)
        (library'.opened name superclass isModule) := by
  unfold Library.opened Library.openClass
  rw [tied.constants]
  cases library'.constants.get? name with
  | some id =>
    dsimp only
    rw [tied.isModule]
    split <;> exact ⟨rfl, tied⟩
  | none =>
    dsimp only
    split
    · exact ⟨congrArg Except.ok tied.size, tied.register ⟨rfl, rfl⟩ (.inl rfl)⟩
    · cases superclass with
      | none =>
        obtain ⟨same, made⟩ := tied.defineClass name tied.layered.nonempty
        exact ⟨congrArg Except.ok same, made⟩
      | some parent =>
        dsimp only
        rw [tied.constant]
        cases named : library'.constant parent with
        | error e => exact ⟨rfl, tied⟩
        | ok id =>
          obtain ⟨same, made⟩ := tied.defineClass name (tied.layered.constant_inside named)
          exact ⟨congrArg Except.ok same, made⟩

end updates

end Libraries

end Recasting

end CallEngine
