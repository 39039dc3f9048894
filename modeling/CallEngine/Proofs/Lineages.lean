import CallEngine.Proofs.Ownership
/-! Where the lines of classes end: at the class of all objects, or at a module that a class was put
under. -/
namespace CallEngine
open Eval

namespace Library

/-- Only modules and the class of all objects have nothing above them. -/
structure Lined (library : Library) : Prop extends library.Layered where
  object : (library.cls Core.object).isModule = false
  top : ∀ cls < library.classes.size,
    (library.cls cls).lineage = [] ↔ cls = Core.object ∨ (library.cls cls).isModule = true

/-- Above the class there are classes only, up to that of all objects, and its instances have what all
objects have. -/
structure Rooted (library : Library) (cls : ClassId) : Prop where
  classes : ∀ other ∈ library.ancestors cls, (library.cls other).isModule = false
  last : (library.ancestors cls).getLast? = some Core.object
  responds : ∀ value name, classOf value = cls → (library.ownMethod Core.object name).isSome →
    (library.findMethod value name).isSome

variable {library later : Library}

theorem findMethod_isSome {value : Value} {name : String}
    (found : (library.searchMethod (classOf value) name).isSome) :
    (library.findMethod value name).isSome := by
  cases value with
  | cls id =>
    simp only [findMethod]
    cases library.searchSingleton id name with
    | some method => rfl
    | none => exact found
  | _ => exact found

namespace Lined

theorem of_eq (lined : library.Lined)
    (same : ∀ id, (later.cls id).lineage = (library.cls id).lineage ∧
      (later.cls id).isModule = (library.cls id).isModule)
    (constants : later.constants = library.constants)
    (size : later.classes.size = library.classes.size) : later.Lined where
  toLayered := lined.toLayered.of_lineage (fun id => (same id).1) constants size
  object := (same Core.object).2.trans lined.object
  top cls inside := by
    rw [(same cls).1, (same cls).2]
    exact lined.top cls (size ▸ inside)

theorem modify (lined : library.Lined) (id : ClassId) {change : Class → Class}
    (same : ∀ cls, (change cls).lineage = cls.lineage ∧ (change cls).isModule = cls.isModule) :
    Lined { library with classes := library.classes.modify id change } := by
  refine lined.of_eq (fun other => ?_) rfl (by simp)
  rw [cls_modify]
  split
  · exact same _
  · exact ⟨rfl, rfl⟩

/-- A new class comes under one that is there, a new module at the top of a line of its own. -/
theorem register (lined : library.Lined) {added : Class}
    (under : added.lineage = [] ∧ added.isModule = true ∨
      added.isModule = false ∧
        ∃ parent < library.classes.size, added.lineage = library.ancestors parent) :
    (library.register added).2.Lined where
  toLayered := lined.toLayered.register (under.imp And.left And.right)
  object := by
    have old : Core.object ≠ library.classes.size := Nat.ne_of_lt lined.nonempty
    rw [cls_register, if_neg old]
    exact lined.object
  top cls inside := by
    have size : (library.register added).2.classes.size = library.classes.size + 1 := by
      simp [Library.register]
    rw [cls_register]
    split
    · next last =>
      rcases under with ⟨none, isModule⟩ | ⟨isClass, parent, -, line⟩
      · simp [none, isModule]
      · have later : cls ≠ Core.object := last ▸ (Nat.ne_of_lt lined.nonempty).symm
        simp [line, isClass, later, ancestors]
    · next old =>
      rw [size] at inside
      exact lined.top cls (Nat.lt_of_le_of_ne (Nat.le_of_lt_succ inside) old)

theorem defineClass (lined : library.Lined) {superclass : Option ClassId} (name : String)
    (known : ∀ id, superclass = some id → ∃ constant, library.constant constant = .ok id) :
    (library.defineClass name (superclass.getD Core.object)).2.Lined := by
  have inside := lined.superclass_inside known
  exact lined.register (.inr ⟨rfl, _, inside, rfl⟩)

theorem defineModule (lined : library.Lined) (name : String) :
    (library.defineModule name).2.Lined :=
  lined.register (.inl ⟨rfl, rfl⟩)

variable (lined : library.Lined) {cls : ClassId}
include lined

/-- With classes only above it, the line of a class ends at that of all objects. -/
theorem last_of_classes (inside : cls < library.classes.size)
    (classes : ∀ other ∈ library.ancestors cls, (library.cls other).isModule = false) :
    (library.ancestors cls).getLast? = some Core.object := by
  -- Superclasses have smaller numbers.
  induction cls using Nat.strongRecOn with
  | _ cls ih =>
    rcases lined.lineage_cases cls with none | ⟨parent, before, line⟩
    · rcases (lined.top cls inside).1 none with rfl | isModule
      · rw [ancestors, none]
        rfl
      · cases (classes cls (.head _)).symm.trans isModule
    · have above := ih parent before (Nat.lt_trans before inside) fun other member =>
        classes other (.tail _ (line ▸ member))
      rw [ancestors, line, List.getLast?_cons, above]
      rfl

theorem rooted (inside : cls < library.classes.size)
    (classes : ∀ other ∈ library.ancestors cls, (library.cls other).isModule = false) :
    library.Rooted cls where
  classes := classes
  last := lined.last_of_classes inside classes
  responds value name own has := by
    apply findMethod_isSome
    rw [own, searchMethod, List.findSome?_isSome_iff]
    exact ⟨_, List.mem_of_getLast? (lined.last_of_classes inside classes), has⟩

/-- Above a module there is nothing. -/
theorem last_of_module {other : ClassId} (above : other ∈ (library.cls cls).lineage)
    (inside : other < library.classes.size) (isModule : (library.cls other).isModule = true) :
    (library.ancestors cls).getLast? = some other := by
  obtain ⟨-, before, line⟩ := lined.ancestors_suffix above
  have none : (library.cls other).lineage = [] := (lined.top other inside).2 (.inr isModule)
  rw [ancestors, none] at line
  rw [ancestors, ← line, List.getLast?_cons, List.getLast?_concat]
  rfl

end Lined

theorem lined_core : ({} : Shared).withCoreClasses.library.Lined where
  toLayered := tidy_core.toLayered
  object := by decide
  top := by
    have core : ∀ cls < 9, (({} : Shared).withCoreClasses.library.cls cls).lineage = [] ↔
        cls = Core.object ∨ (({} : Shared).withCoreClasses.library.cls cls).isModule = true := by
      decide
    exact core

end Library

namespace Mirror

/-- A run beside itself. -/
def lining (first : Nat) : Mirror := ⟨id, first, Library.Lined, True⟩

theorem lining_kept {first : Nat} (positive : 0 < first) : (lining first).IsKept where
  injective _ _ := id
  zero := rfl
  next _ _ := rfl
  first := positive
  adds _ lined := lined.of_eq (fun _ => ⟨rfl, rfl⟩) rfl rfl
  sets _ lined := lined.of_eq (fun _ => ⟨rfl, rfl⟩) rfl rfl
  binds _ _ lined := lined.modify _ fun _ => ⟨rfl, rfl⟩
  bindsSingleton _ _ lined := lined.modify _ fun _ => ⟨rfl, rfl⟩
  defines name known lined := lined.defineClass name known
  definesModule name lined := lined.defineModule name

end Mirror

section sessions

variable (config : Config) (backend : Backend) (tellsCompiles : Bool) (hooks : List Hook)
  (contexts fuel : Nat)

/-- The lines of classes are in order after every session, and wherever its scripts call something. -/
theorem Session.after_lined {firstTarget : Nat} (positive : 0 < firstTarget) (steps : List Step)
    (id : ContextId) :
    let later := (start config backend tellsCompiles hooks contexts firstTarget).after fuel steps
    let s : State := ⟨later.shared, later.contexts.getD id default⟩
    s.shared.library.Lined ∧ ∀ scope (node : Node) last request t,
      During (fun ask => Engine.toplevelOf scope (node.eval fuel ask)) fuel s last request t →
        t.shared.library.Lined := by
  intro later s
  have kept := Mirror.lining_kept positive
  obtain ⟨settled, during⟩ := kept.throughout rfl Library.lined_core config backend tellsCompiles hooks
    contexts fuel steps (fun _ _ _ => trivial) id
  refine ⟨settled.tidy, fun scope node last request t reached => ?_⟩
  exact (during scope node last request t reached).tidy

/-- The line of a class consists of classes and ends at that of all objects, whose methods its instances
have, unless the class or one above it was put under a module. There the line ends. -/
theorem lines_end_at_object {firstTarget : Nat} (positive : 0 < firstTarget)
    (steps : List Session.Step) (id : ContextId) :
    let later :=
      (Session.start config backend tellsCompiles hooks contexts firstTarget).after fuel steps
    let s : State := ⟨later.shared, later.contexts.getD id default⟩
    ∀ t : State, (t = s ∨ ∃ scope, ∃ node : Node, ∃ last request,
        During (fun ask => Engine.toplevelOf scope (node.eval fuel ask)) fuel s last request t) →
      let library := t.shared.library
      ∀ name cls, library.constant name = .ok cls → (library.cls cls).isModule = false →
        ((∀ other ∈ (library.cls cls).lineage, (library.cls other).isModule = false) →
          library.Rooted cls) ∧
        ∀ other ∈ (library.cls cls).lineage, (library.cls other).isModule = true →
          (library.ancestors cls).getLast? = some other := by
  intro later s t reached library name cls named isClass
  obtain ⟨settled, during⟩ := Session.after_lined config backend tellsCompiles hooks contexts fuel
    positive steps id
  have lined : library.Lined := by
    rcases reached with rfl | ⟨scope, node, last, request, reached⟩
    · exact settled
    · exact during scope node last request t reached
  have inside := lined.constant_inside named
  constructor
  · intro classes
    apply lined.rooted inside
    intro other member
    rcases List.mem_cons.1 member with rfl | above
    · exact isClass
    · exact classes other above
  · intro other above isModule
    have before := (lined.ancestors_suffix above).1
    exact lined.last_of_module above (Nat.lt_trans before inside) isModule

end sessions

/-- A class under a class. -/
theorem lines_end_at_object_nested :
    let script : Source := .seq
      [.classBody "A" none false {} .nil, .classBody "B" (some "A") false {} .nil]
    let later := (Session.start {} .lowering true [] 1 1).after 5 [{ command := .run script [] none }]
    let s : State := ⟨later.shared, later.contexts.getD 0 default⟩
    s.shared.library.ancestors 10 = [10, 9, Core.object] ∧ s.shared.library.Rooted 10 := by
  intro script later s
  have named : s.shared.library.constants.get? "B" = some 10 := by decide +kernel
  have isClass : (s.shared.library.cls 10).isModule = false := by decide +kernel
  have classes : ∀ other ∈ (s.shared.library.cls 10).lineage,
      (s.shared.library.cls other).isModule = false := by decide +kernel
  have line : s.shared.library.ancestors 10 = [10, 9, Core.object] := by decide +kernel
  have constant : s.shared.library.constant "B" = .ok 10 := by rw [Library.constant, named]
  have ends := lines_end_at_object {} .lowering true [] 1 5 Nat.one_pos
    [{ command := .run script [] none }] 0 s (.inl rfl) "B" 10
  exact ⟨line, (ends constant isClass).1 classes⟩

/-- Nothing keeps a script from putting a class under a module. Its instances do not even have
`inspect`. -/
theorem class_under_module :
    let script : Source := .seq
      [.classBody "M" none true {} .nil, .classBody "C" (some "M") false {} .nil]
    let start := Session.start {} .lowering true [] 1 1
    let library := (start.after 5 [{ command := .run script [] none }]).shared.library
    library.constants.get? "C" = some 10 ∧ (library.cls 10).isModule = false ∧
      library.ancestors 10 = [10, 9] ∧ (library.cls 9).isModule = true ∧ ¬library.Rooted 10 ∧
      library.ownMethod Core.object "inspect" = some 0 ∧
      library.findMethod (.object ⟨1, 10⟩) "inspect" = none := by
  intro script start library
  have last : (library.ancestors 10).getLast? = some 9 := by decide +kernel
  refine ⟨by decide +kernel, by decide +kernel, by decide +kernel, by decide +kernel, ?_,
    by decide +kernel, by decide +kernel⟩
  intro rooted
  cases last.symm.trans rooted.last

end CallEngine
