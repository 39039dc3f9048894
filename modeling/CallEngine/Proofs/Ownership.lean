import CallEngine.Proofs.MirroredSessions
/-! Classes and what they own. Superclasses come before the classes under them, so that their lines end,
and the methods in the tables of a class belong to that class. -/
namespace CallEngine
open Eval

namespace Library

/-- Superclasses come first, and constants name classes that exist. -/
structure Layered (library : Library) : Prop where
  lineage : ∀ cls < library.classes.size, (library.cls cls).lineage = [] ∨
    ∃ parent < cls, (library.cls cls).lineage = library.ancestors parent
  constants : ∀ name id, library.constants.get? name = some id → id < library.classes.size
  nonempty : 0 < library.classes.size

/-- The methods that a class has, and those of the class itself, belong to it. -/
def OwnsTables (library : Library) : Prop :=
  ∀ cls name id, library.ownMethod cls name = some id ∨ library.ownSingleton cls name = some id →
    library.Owns cls id

/-- The first class of the line that has a method of that name. -/
theorem searchAbove_eq_some {library : Library} {cls : ClassId} {name : String} {id : MethodId} :
    library.searchAbove cls name = some id ↔ ∃ below owner above,
      (library.cls cls).lineage = below ++ owner :: above ∧
        (∀ other ∈ below, library.ownMethod other name = none) ∧
        library.ownMethod owner name = some id := by
  unfold searchAbove
  rw [List.findSome?_eq_some_iff]
  constructor
  · rintro ⟨below, owner, above, line, own, none⟩
    exact ⟨below, owner, above, line, none, own⟩
  · rintro ⟨below, owner, above, line, none, own⟩
    exact ⟨below, owner, above, line, own, none⟩

theorem searchAbove_eq_none {library : Library} {cls : ClassId} {name : String} :
    library.searchAbove cls name = none ↔
      ∀ other ∈ (library.cls cls).lineage, library.ownMethod other name = none :=
  List.findSome?_eq_none_iff

section lines

variable {library : Library}

theorem cls_outside {cls : ClassId} (outside : library.classes.size ≤ cls) :
    library.cls cls = default := by
  simp [Library.cls, outside]

/-- What is no class has no methods. -/
theorem lt_of_own {cls : ClassId} {name : String} {id : MethodId}
    (own : library.ownMethod cls name = some id ∨ library.ownSingleton cls name = some id) :
    cls < library.classes.size := by
  refine Nat.lt_of_not_le fun outside => ?_
  simp only [ownMethod, ownSingleton, cls_outside outside] at own
  have none : (default : Class).methods = {} ∧ (default : Class).singletons = {} := ⟨rfl, rfl⟩
  simp [none] at own

theorem lineage_outside {cls : ClassId} (outside : library.classes.size ≤ cls) :
    (library.cls cls).lineage = [] := by
  rw [cls_outside outside]
  rfl

namespace Layered

variable (layered : library.Layered)
include layered

theorem constant_inside {name : String} {id : ClassId} (named : library.constant name = .ok id) :
    id < library.classes.size := by
  unfold Library.constant at named
  split at named
  · next own =>
    cases named
    exact layered.constants name id own
  · cases named

theorem superclass_inside {superclass : Option ClassId}
    (known : ∀ id, superclass = some id → ∃ constant, library.constant constant = .ok id) :
    superclass.getD Core.object < library.classes.size := by
  cases superclass with
  | none => exact layered.nonempty
  | some id =>
    obtain ⟨constant, named⟩ := known id rfl
    exact layered.constant_inside named

theorem lineage_cases (cls : ClassId) : (library.cls cls).lineage = [] ∨
    ∃ parent < cls, (library.cls cls).lineage = library.ancestors parent := by
  by_cases inside : cls < library.classes.size
  · exact layered.lineage cls inside
  · exact .inl (lineage_outside (Nat.le_of_not_lt inside))

/-- What is above a class has the rest of the line above it. -/
theorem ancestors_suffix {cls above : ClassId} (member : above ∈ (library.cls cls).lineage) :
    above < cls ∧ library.ancestors above <:+ (library.cls cls).lineage := by
  induction cls using Nat.strongRecOn with
  | _ cls ih =>
    rcases layered.lineage_cases cls with none | ⟨parent, before, line⟩
    · rw [none] at member
      cases member
    · rw [line] at member ⊢
      rcases List.mem_cons.1 member with rfl | further
      · exact ⟨before, List.suffix_refl _⟩
      · obtain ⟨less, rest⟩ := ih parent before further
        exact ⟨Nat.lt_trans less before, rest.trans (List.suffix_cons ..)⟩

/-- Each class of the line is above those before it. -/
theorem ancestors_ascend (cls : ClassId) :
    (library.ancestors cls).Pairwise fun below above => above ∈ (library.cls below).lineage := by
  induction cls using Nat.strongRecOn with
  | _ cls ih =>
    refine List.pairwise_cons.2 ⟨fun _ member => member, ?_⟩
    rcases layered.lineage_cases cls with none | ⟨parent, before, line⟩
    · rw [none]
      exact .nil
    · rw [line]
      exact ih parent before

theorem ancestors_nodup (cls : ClassId) : (library.ancestors cls).Nodup := by
  refine (layered.ancestors_ascend cls).imp fun {below above} member same => ?_
  subst same
  exact Nat.lt_irrefl below (layered.ancestors_suffix member).1

end Layered

end lines

section updates

variable {library : Library}

theorem cls_modify (library : Library) (id other : ClassId) (change : Class → Class) :
    cls { library with classes := library.classes.modify id change } other =
      if id = other ∧ other < library.classes.size then change (library.cls other)
      else library.cls other := by
  simp only [cls, Array.getD_eq_getD_getElem?, Array.getElem?_modify]
  by_cases inside : other < library.classes.size
  · by_cases here : id = other <;> simp [inside, here]
  · by_cases here : id = other <;> simp [inside, here]

theorem cls_register (library : Library) (added : Class) (other : ClassId) :
    (library.register added).2.cls other =
      if other = library.classes.size then added else library.cls other := by
  simp only [cls, register, Array.getD_eq_getD_getElem?, Array.getElem?_push]
  split <;> rfl

theorem Layered.of_lineage {later : Library} (layered : library.Layered)
    (lineage : ∀ id, (later.cls id).lineage = (library.cls id).lineage)
    (constants : later.constants = library.constants)
    (size : later.classes.size = library.classes.size) : later.Layered where
  lineage cls inside := by
    simp only [ancestors, lineage]
    exact layered.lineage cls (size ▸ inside)
  constants name id named := size ▸ layered.constants name id (constants ▸ named)
  nonempty := size ▸ layered.nonempty

theorem Layered.modify (layered : library.Layered) (id : ClassId) {change : Class → Class}
    (lineage : ∀ cls, (change cls).lineage = cls.lineage) :
    Layered { library with classes := library.classes.modify id change } := by
  refine layered.of_lineage (fun other => ?_) rfl (by simp)
  rw [cls_modify]
  split
  · exact lineage _
  · rfl

theorem constants_register {added : Class}
    (known : ∀ name id, library.constants.get? name = some id → id < library.classes.size)
    {name : String} {id : ClassId} (named : (library.register added).2.constants.get? name = some id) :
    id < (library.register added).2.classes.size := by
  have size : (library.register added).2.classes.size = library.classes.size + 1 := by
    simp [Library.register]
  rw [size]
  change (library.constants.insert added.name library.classes.size).get? name = some id at named
  rw [Table.get?_insert] at named
  split at named
  · cases named
    exact Nat.lt_succ_self _
  · exact Nat.lt_succ_of_lt (known name id named)

/-- A new class comes under one that is there, or at the top of a line of its own. -/
theorem Layered.register (layered : library.Layered) {added : Class}
    (under : added.lineage = [] ∨
      ∃ parent < library.classes.size, added.lineage = library.ancestors parent) :
    (library.register added).2.Layered := by
  have size : (library.register added).2.classes.size = library.classes.size + 1 := by
    simp [Library.register]
  have same (parent : ClassId) (inside : parent < library.classes.size) :
      (library.register added).2.ancestors parent = library.ancestors parent := by
    simp only [ancestors, cls_register, Nat.ne_of_lt inside, if_false]
  constructor
  · intro cls inside
    rw [size] at inside
    rw [cls_register]
    split
    · next last =>
      subst last
      rcases under with none | ⟨parent, before, line⟩
      · exact .inl none
      · exact .inr ⟨parent, before, line.trans (same parent before).symm⟩
    · next old =>
      have inside : cls < library.classes.size :=
        Nat.lt_of_le_of_ne (Nat.le_of_lt_succ inside) old
      rcases layered.lineage cls inside with none | ⟨parent, before, line⟩
      · exact .inl none
      · have known := same parent (Nat.lt_trans before inside)
        exact .inr ⟨parent, before, line.trans known.symm⟩
  · exact fun name id named => constants_register layered.constants named
  · omega

/-- The tables can be checked entry by entry. -/
theorem OwnsTables.of_entries
    (entries : ∀ cls < library.classes.size,
      ∀ entry ∈ (library.cls cls).methods.toList ++ (library.cls cls).singletons.toList,
        library.Owns cls entry.2) : library.OwnsTables := by
  intro cls name id own
  refine entries cls (lt_of_own own) (name, id) (List.mem_append.2 ?_)
  exact own.imp Table.mem_toList.2 Table.mem_toList.2

theorem OwnsTables.of_owns {later : Library} (owns : library.OwnsTables)
    (classes : later.classes = library.classes)
    (grows : ∀ cls id, library.Owns cls id → later.Owns cls id) : later.OwnsTables := by
  intro cls name id own
  simp only [ownMethod, ownSingleton, Library.cls, classes] at own
  exact grows cls id (owns cls name id own)

theorem OwnsTables.register (owns : library.OwnsTables) {added : Class} (none : added.methods = {})
    (none' : added.singletons = {}) : (library.register added).2.OwnsTables := by
  intro cls name id own
  simp only [ownMethod, ownSingleton, cls_register] at own
  split at own
  · rw [none, none'] at own
    simp [Table.get?] at own
  · exact owns cls name id own

/-- A table takes a method that belongs to its class. -/
theorem OwnsTables.modify (owns : library.OwnsTables) {cls : ClassId} {id : MethodId}
    (owned : library.Owns cls id) {change : Class → Class}
    (bound : ∀ c name found, (change c).methods.get? name = some found ∨
      (change c).singletons.get? name = some found → found = id ∨
        c.methods.get? name = some found ∨ c.singletons.get? name = some found) :
    OwnsTables { library with classes := library.classes.modify cls change } := by
  intro other name found own
  simp only [ownMethod, ownSingleton, cls_modify] at own
  split at own
  · next here =>
    obtain ⟨rfl, -⟩ := here
    rcases bound _ name found own with rfl | old
    · exact owned
    · exact owns cls name found old
  · exact owns other name found own

end updates

/-- What every run keeps. -/
structure Tidy (library : Library) : Prop extends library.Layered where
  owns : library.OwnsTables

namespace Tidy

variable {library : Library} (tidy : library.Tidy)
include tidy

theorem addMethod (m : Method) : (library.addMethod m).2.Tidy :=
  ⟨tidy.of_lineage (fun _ => rfl) rfl rfl,
    tidy.owns.of_owns rfl (Grows.addMethod library m).owns⟩

theorem setMethod {id : MethodId} {m : Method} (owner : m.owner = (library.method id).owner) :
    (library.setMethod id m).Tidy :=
  ⟨tidy.of_lineage (fun _ => rfl) rfl rfl, tidy.owns.of_owns rfl (Grows.setMethod owner).owns⟩

theorem defineMethod {cls : ClassId} {id : MethodId} (owned : library.Owns cls id) (name : String) :
    (library.defineMethod cls name id).Tidy := by
  refine ⟨tidy.modify _ fun _ => rfl, tidy.owns.modify owned fun c other found own => ?_⟩
  simp only [Table.get?_insert] at own
  split at own
  · rcases own with new | old
    · exact .inl (Option.some.inj new).symm
    · exact .inr (.inr old)
  · exact .inr own

theorem defineSingleton {cls : ClassId} {id : MethodId} (owned : library.Owns cls id)
    (name : String) : (library.defineSingleton cls name id).Tidy := by
  refine ⟨tidy.modify _ fun _ => rfl, tidy.owns.modify owned fun c other found own => ?_⟩
  simp only [Table.get?_insert] at own
  split at own
  · rcases own with old | new
    · exact .inr (.inl old)
    · exact .inl (Option.some.inj new).symm
  · exact .inr own

theorem defineClass {superclass : Option ClassId} (name : String)
    (known : ∀ id, superclass = some id → ∃ constant, library.constant constant = .ok id) :
    (library.defineClass name (superclass.getD Core.object)).2.Tidy := by
  have inside := tidy.superclass_inside known
  exact ⟨tidy.register (.inr ⟨_, inside, rfl⟩), tidy.owns.register rfl rfl⟩

theorem defineModule (name : String) : (library.defineModule name).2.Tidy :=
  ⟨tidy.register (.inl rfl), tidy.owns.register rfl rfl⟩

end Tidy

/-- The core classes have no methods yet. -/
theorem tidy_core : ({} : Shared).withCoreClasses.library.Tidy := by
  let Bare (library : Library) : Prop :=
    (∀ name id, library.constants.get? name = some id → id < library.classes.size) ∧
      library.OwnsTables
  have bare : Bare ({} : Shared).withCoreClasses.library := by
    refine List.foldlRecOn Core.classes _ (motive := Bare) ?_ fun library bare added member => ?_
    · refine ⟨fun name id named => ?_, fun cls name id own => ?_⟩
      · simp at named
      · exact absurd (lt_of_own own) (Nat.not_lt_zero cls)
    · have none : added.methods = {} ∧ added.singletons = {} := by
        rcases List.mem_cons.1 member with rfl | member
        · exact ⟨rfl, rfl⟩
        · obtain ⟨name, -, rfl⟩ := List.mem_map.1 member
          exact ⟨rfl, rfl⟩
      exact ⟨fun name id named => constants_register bare.1 named, bare.2.register none.1 none.2⟩
  refine ⟨⟨?_, bare.1, by decide⟩, bare.2⟩
  have lines : ∀ cls < 9, (({} : Shared).withCoreClasses.library.cls cls).lineage = [] ∨
      0 < cls ∧ (({} : Shared).withCoreClasses.library.cls cls).lineage = [Core.object] := by
    decide
  intro cls inside
  rcases lines cls inside with top | ⟨later, under⟩
  · exact .inl top
  · exact .inr ⟨Core.object, later, under⟩

end Library

namespace Mirror

/-- A run beside itself, on a library that was `base` at some time. -/
def owning (base : Library) (first : Nat) : Mirror :=
  ⟨id, first, fun library => library.Tidy ∧ base.Grows library, False⟩

theorem Proper.owning {first : Nat} {s : State} (numbered : s.Numbered first)
    (tidy : s.shared.library.Tidy) : (owning s.shared.library first).Proper s :=
  ⟨numbered, tidy, .refl _⟩

theorem owning_kept (base : Library) {first : Nat} (positive : 0 < first) :
    (owning base first).IsKept where
  injective _ _ := id
  zero := rfl
  next _ _ := rfl
  first := positive
  adds m holds := ⟨holds.1.addMethod m, holds.2.trans (.addMethod ..)⟩
  sets owner holds := ⟨holds.1.setMethod owner, holds.2.trans (.setMethod owner)⟩
  binds name owned holds :=
    ⟨holds.1.defineMethod (owned.resolve_left id) name, holds.2.trans (.modify _ _ fun _ => rfl)⟩
  bindsSingleton name owned holds :=
    ⟨holds.1.defineSingleton (owned.resolve_left id) name, holds.2.trans (.modify _ _ fun _ => rfl)⟩
  defines name known holds := ⟨holds.1.defineClass name known, holds.2.trans (.register ..)⟩
  definesModule name holds := ⟨holds.1.defineModule name, holds.2.trans (.register ..)⟩

end Mirror

end CallEngine
