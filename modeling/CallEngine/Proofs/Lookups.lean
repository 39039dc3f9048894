import CallEngine.Proofs.Lineages
import CallEngine.Proofs.Recasting
import Mathlib.Logic.Relation
/-! What a new entry in a method table does to look-ups. The classes under the one that has it find it,
unless an entry in between is nearer to them. All other look-ups find what they found before. -/
namespace CallEngine
open Eval

namespace Library

/-- Classes that were made one by one, each on its own or under one that was there. Methods come and go,
and are entered anywhere. -/
inductive Built : Library → Prop where
  | first (name : String) (isModule : Bool) : Built (({} : Library).register { name, isModule }).2
  | apart {library : Library} (name : String) (isModule : Bool) : Built library →
      Built (library.register { name, isModule }).2
  | under {library : Library} {superclass : ClassId} (name : String) : Built library →
      superclass < library.classes.size → Built (library.defineClass name superclass).2
  | entry {library : Library} (cls : ClassId) (name : String) (id : MethodId) : Built library →
      Built (library.defineMethod cls name id)
  | singletonEntry {library : Library} (cls : ClassId) (name : String) (id : MethodId) :
      Built library → Built (library.defineSingleton cls name id)
  | methods {library later : Library} : Built library → later.classes = library.classes →
      later.constants = library.constants → Built later

/-- The second class comes directly above the first one. -/
def HasSuperclass (library : Library) (cls superclass : ClassId) : Prop :=
  (library.cls cls).lineage.head? = some superclass

/-- The first class is the second one or comes under it. -/
abbrev AtOrUnder (library : Library) : ClassId → ClassId → Prop :=
  Relation.ReflTransGen library.HasSuperclass

abbrev Under (library : Library) : ClassId → ClassId → Prop :=
  Relation.TransGen library.HasSuperclass

/-- Goes up superclass by superclass, to the first entry or to the top. -/
inductive Climb (library : Library) (own : ClassId → Option MethodId) :
    ClassId → Option MethodId → Prop where
  | here {cls : ClassId} {id : MethodId} : own cls = some id → Climb library own cls (some id)
  | up {cls superclass : ClassId} {found : Option MethodId} : own cls = none →
      library.HasSuperclass cls superclass → Climb library own superclass found →
      Climb library own cls found
  | top {cls : ClassId} : own cls = none → (∀ superclass, ¬library.HasSuperclass cls superclass) →
      Climb library own cls none

/-- On the way up from the class to the owner there is no entry before the owner's. -/
structure Unshadowed (library : Library) (own : ClassId → Option MethodId) (cls owner : ClassId) :
    Prop where
  above : library.AtOrUnder cls owner
  clear : ∀ other, library.AtOrUnder cls other → library.Under other owner → own other = none

/-- Going up ends for every class, with the entry nearest to it, and the search gives what it ends with.
What is found from a class above is not lost. -/
structure FindsNearest (library : Library) (own search : ClassId → String → Option MethodId) :
    Prop where
  climbs : ∀ cls name found, library.Climb (own · name) cls found ↔ search cls name = found
  nearest : ∀ cls name id, search cls name = some id ↔
    ∃ owner, library.Unshadowed (own · name) cls owner ∧ own owner name = some id
  inherited : ∀ cls above name, library.AtOrUnder cls above → (search above name).isSome →
    (search cls name).isSome

/-- What the owner's new entry changes about a search. -/
structure Redirects (library : Library) (own search later : ClassId → String → Option MethodId)
    (owner : ClassId) (name : String) (id : MethodId) : Prop where
  seen : ∀ cls, library.Unshadowed (own · name) cls owner → later cls name = some id
  rest : ∀ cls wanted, ¬(wanted = name ∧ library.Unshadowed (own · name) cls owner) →
    later cls wanted = search cls wanted

/-- The law of look-ups. The two kinds of entries have nothing to do with each other. -/
structure LooksUp (library : Library) : Prop where
  ancestry : ∀ cls other, library.inherits cls other = true ↔ library.AtOrUnder cls other
  methods : library.FindsNearest library.ownMethod library.searchMethod
  singletons : library.FindsNearest library.ownSingleton library.searchSingleton
  defineMethod : ∀ owner < library.classes.size, ∀ name id,
    let later := library.defineMethod owner name id
    library.Redirects library.ownMethod library.searchMethod later.searchMethod owner name id ∧
      later.searchSingleton = library.searchSingleton
  defineSingleton : ∀ owner < library.classes.size, ∀ name id,
    let later := library.defineSingleton owner name id
    library.Redirects library.ownSingleton library.searchSingleton later.searchSingleton owner name
        id ∧
      later.searchMethod = library.searchMethod

namespace Built

theorem layered {library : Library} (built : library.Built) : library.Layered := by
  induction built with
  | first name isModule =>
    have none (cls : ClassId) :
        ((({} : Library).register { name, isModule }).2.cls cls).lineage = [] := by
      rw [cls_register]
      split <;> rfl
    refine ⟨fun cls _ => .inl (none cls), fun other id named => ?_, Nat.one_pos⟩
    exact constants_register (fun other id named => by simp at named) named
  | apart name isModule _ ih => exact ih.register (.inl rfl)
  | under name _ inside ih => exact ih.register (.inr ⟨_, inside, rfl⟩)
  | entry cls name id _ ih => exact ih.modify cls fun _ => rfl
  | singletonEntry cls name id _ ih => exact ih.modify cls fun _ => rfl
  | methods _ classes constants ih =>
    refine ih.of_lineage (fun id => ?_) constants (congrArg Array.size classes)
    simp only [cls, classes]

theorem core : ({} : Shared).withCoreClasses.library.Built := by
  let Ready (library : Library) : Prop :=
    library.Built ∧ (library.cls Core.object).lineage = []
  let object : Library := (({} : Library).register { name := "Object" }).2
  have ready :
      Ready (Core.classes.tail.foldl (fun library c => (library.register c).2) object) := by
    refine List.foldlRecOn _ _ (motive := Ready) ?_ fun library ready added member => ?_
    · exact ⟨.first "Object" false, rfl⟩
    · obtain ⟨built, top⟩ := ready
      obtain ⟨name, -, rfl⟩ := List.mem_map.1 member
      have line : [Core.object] = library.ancestors Core.object := by rw [ancestors, top]
      have inside := built.layered.nonempty
      have old : Core.object ≠ library.classes.size := Nat.ne_of_lt inside
      refine ⟨line ▸ built.under name inside, ?_⟩
      rw [cls_register, if_neg old, top]
  exact ready.1

end Built

section lines

namespace Layered

variable {library : Library} (layered : library.Layered)
include layered

theorem superclass_cases (cls : ClassId) :
    ((library.cls cls).lineage = [] ∧ ∀ superclass, ¬library.HasSuperclass cls superclass) ∨
      ∃ superclass < cls, library.HasSuperclass cls superclass ∧
        (library.cls cls).lineage = library.ancestors superclass := by
  unfold HasSuperclass
  rcases layered.lineage_cases cls with alone | ⟨parent, before, line⟩
  · exact .inl ⟨alone, by simp [alone]⟩
  · exact .inr ⟨parent, before, congrArg List.head? line, line⟩

theorem lineage_of_superclass {cls superclass : ClassId}
    (link : library.HasSuperclass cls superclass) :
    (library.cls cls).lineage = library.ancestors superclass := by
  rcases layered.superclass_cases cls with ⟨-, alone⟩ | ⟨parent, -, other, line⟩
  · exact absurd link (alone superclass)
  · cases Option.some.inj (link.symm.trans other)
    exact line

theorem atOrUnder_iff {cls other : ClassId} :
    library.AtOrUnder cls other ↔ other ∈ library.ancestors cls := by
  constructor
  · intro path
    induction path using Relation.ReflTransGen.head_induction_on with
    | refl => exact List.mem_cons_self
    | head link _ ih => exact List.mem_cons_of_mem _ (layered.lineage_of_superclass link ▸ ih)
  · intro member
    induction cls using Nat.strongRecOn with
    | _ cls ih =>
      rcases List.mem_cons.1 member with rfl | above
      · exact .refl
      · rcases layered.superclass_cases cls with ⟨alone, -⟩ | ⟨parent, before, link, line⟩
        · rw [alone] at above
          cases above
        · exact .head link (ih parent before (line ▸ above))

theorem under_iff {cls other : ClassId} :
    library.Under cls other ↔ other ∈ (library.cls cls).lineage := by
  refine Relation.TransGen.head'_iff.trans ⟨?_, ?_⟩
  · rintro ⟨superclass, link, path⟩
    rw [layered.lineage_of_superclass link]
    exact layered.atOrUnder_iff.1 path
  · intro above
    rcases layered.superclass_cases cls with ⟨alone, -⟩ | ⟨parent, -, link, line⟩
    · rw [alone] at above
      cases above
    · exact ⟨parent, link, layered.atOrUnder_iff.2 (line ▸ above)⟩

theorem under_ne {cls other : ClassId} (under : library.Under cls other) : cls ≠ other := by
  have before := (layered.ancestors_suffix (layered.under_iff.1 under)).1
  exact (Nat.ne_of_lt before).symm

/-- What is below the owner on the line comes before it. -/
theorem unshadowed_iff {own : ClassId → Option MethodId} {cls owner : ClassId} :
    library.Unshadowed own cls owner ↔ ∃ below above,
      library.ancestors cls = below ++ owner :: above ∧ ∀ other ∈ below, own other = none := by
  constructor
  · rintro ⟨above, clear⟩
    obtain ⟨below, rest, line⟩ := List.append_of_mem (layered.atOrUnder_iff.1 above)
    refine ⟨below, rest, line, fun other member => clear other ?_ ?_⟩
    · exact layered.atOrUnder_iff.2 (line ▸ List.mem_append_left _ member)
    · have ascends := layered.ancestors_ascend cls
      rw [line, List.pairwise_append] at ascends
      exact layered.under_iff.2 (ascends.2.2 other member owner List.mem_cons_self)
  · rintro ⟨below, rest, line, none⟩
    have ascends := layered.ancestors_ascend cls
    rw [line, List.pairwise_append] at ascends
    refine ⟨layered.atOrUnder_iff.2 (by simp [line]), fun other member under => ?_⟩
    have before := (layered.ancestors_suffix (layered.under_iff.1 under)).1
    rcases List.mem_append.1 (line ▸ layered.atOrUnder_iff.1 member) with below | further
    · exact none other below
    · rcases List.mem_cons.1 further with rfl | above
      · exact absurd before (Nat.lt_irrefl _)
      · -- Then each of the two would come above the other one.
        have after := (List.pairwise_cons.1 ascends.2.1).1 other above
        exact absurd (layered.ancestors_suffix after).1 (Nat.lt_asymm before)

end Layered

end lines

section searches

variable {library : Library}

theorem ancestors_modify (library : Library) (id other : ClassId) {change : Class → Class}
    (lineage : ∀ cls, (change cls).lineage = cls.lineage) :
    ancestors { library with classes := library.classes.modify id change } other =
      library.ancestors other := by
  rw [ancestors, cls_modify]
  split
  · rw [lineage, ancestors]
  · rfl

namespace Layered

variable (layered : library.Layered)
include layered

/-- Each step up leads to a class that was made before, so there is a last one. -/
theorem climb_iff {own : ClassId → Option MethodId} {cls : ClassId} {found : Option MethodId} :
    library.Climb own cls found ↔ (library.ancestors cls).findSome? own = found := by
  constructor
  · intro climb
    induction climb with
    | here entry => rw [ancestors, List.findSome?_cons, entry]
    | up none link _ ih =>
      rw [ancestors, List.findSome?_cons, none, layered.lineage_of_superclass link]
      exact ih
    | @top cls none last =>
      rw [ancestors, List.findSome?_cons, none]
      rcases layered.superclass_cases cls with ⟨alone, -⟩ | ⟨parent, -, link, -⟩
      · rw [alone]
        rfl
      · exact absurd link (last parent)
  · rintro rfl
    induction cls using Nat.strongRecOn with
    | _ cls ih =>
      rw [ancestors, List.findSome?_cons]
      cases entry : own cls with
      | some id => exact .here entry
      | none =>
        rcases layered.superclass_cases cls with ⟨alone, last⟩ | ⟨parent, before, link, line⟩
        · rw [alone]
          exact .top entry last
        · rw [line]
          exact .up entry link (ih parent before)

theorem findSome_eq_some_iff {own : ClassId → Option MethodId} {cls : ClassId} {id : MethodId} :
    (library.ancestors cls).findSome? own = some id ↔
      ∃ owner, library.Unshadowed own cls owner ∧ own owner = some id := by
  rw [List.findSome?_eq_some_iff]
  constructor
  · rintro ⟨below, owner, above, line, entry, none⟩
    exact ⟨owner, layered.unshadowed_iff.2 ⟨below, above, line, none⟩, entry⟩
  · rintro ⟨owner, unshadowed, entry⟩
    obtain ⟨below, above, line, none⟩ := layered.unshadowed_iff.1 unshadowed
    exact ⟨below, owner, above, line, entry, none⟩

section tables

variable {own search : ClassId → String → Option MethodId}
  (along : ∀ cls name, search cls name = (library.ancestors cls).findSome? (own · name))
include along

theorem findsNearest : library.FindsNearest own search where
  climbs cls name found := by
    rw [along]
    exact layered.climb_iff
  nearest cls name id := by
    rw [along]
    exact layered.findSome_eq_some_iff
  inherited cls above name heir found := by
    rw [along, List.findSome?_isSome_iff] at found ⊢
    obtain ⟨owner, member, has⟩ := found
    have under := heir.trans (layered.atOrUnder_iff.2 member)
    exact ⟨owner, layered.atOrUnder_iff.1 under, has⟩

theorem redirects {own' search' : ClassId → String → Option MethodId} {owner : ClassId}
    (inside : owner < library.classes.size) {name : String} {id : MethodId}
    (entered : ∀ other wanted, own' other wanted =
      if (owner = other ∧ other < library.classes.size) ∧ name = wanted then some id
      else own other wanted)
    (along' : ∀ cls wanted,
      search' cls wanted = (library.ancestors cls).findSome? (own' · wanted)) :
    library.Redirects own search search' owner name id where
  seen cls unshadowed := by
    rw [along', layered.findSome_eq_some_iff]
    refine ⟨owner, ⟨unshadowed.above, fun other member under => ?_⟩, ?_⟩
    · have others := layered.under_ne under
      rw [entered, if_neg fun here => others here.1.1.symm]
      exact unshadowed.clear other member under
    · rw [entered, if_pos ⟨⟨rfl, inside⟩, rfl⟩]
  rest cls wanted hidden := by
    have none_of_none (other : ClassId) (absent : own' other wanted = none) :
        own other wanted = none := by
      rw [entered] at absent
      split at absent
      · cases absent
      · exact absent
    rw [along, along']
    cases found : (library.ancestors cls).findSome? (own' · wanted) with
    | none =>
      rw [List.findSome?_eq_none_iff] at found
      exact (List.findSome?_eq_none_iff.2 fun other member =>
        none_of_none other (found other member)).symm
    | some id' =>
      -- Nothing hid it before either, so it is an old entry or the new one is in sight.
      obtain ⟨first, ⟨above, clear⟩, entry⟩ := layered.findSome_eq_some_iff.1 found
      have unshadowed : library.Unshadowed (own · wanted) cls first :=
        ⟨above, fun other member under => none_of_none other (clear other member under)⟩
      rw [entered] at entry
      split at entry
      · next here =>
        obtain ⟨⟨rfl, -⟩, rfl⟩ := here
        exact absurd ⟨rfl, unshadowed⟩ hidden
      · exact (layered.findSome_eq_some_iff.2 ⟨first, unshadowed, entry⟩).symm

end tables

theorem looksUp : library.LooksUp where
  ancestry cls other := by rw [inherits, List.contains_iff_mem, layered.atOrUnder_iff]
  methods := layered.findsNearest fun _ _ => rfl
  singletons := layered.findsNearest fun _ _ => rfl
  defineMethod owner inside name id := by
    have line (cls : ClassId) :
        (library.defineMethod owner name id).ancestors cls = library.ancestors cls :=
      library.ancestors_modify owner cls fun _ => rfl
    refine ⟨layered.redirects (fun _ _ => rfl) inside library.ownMethod_defineMethod
      fun cls wanted => ?_, funext fun cls => funext fun wanted => ?_⟩
    · rw [searchMethod, line]
    · simp only [searchSingleton, line, ownSingleton_defineMethod]
  defineSingleton owner inside name id := by
    have line (cls : ClassId) :
        (library.defineSingleton owner name id).ancestors cls = library.ancestors cls :=
      library.ancestors_modify owner cls fun _ => rfl
    refine ⟨layered.redirects (fun _ _ => rfl) inside library.ownSingleton_defineSingleton
      fun cls wanted => ?_, funext fun cls => funext fun wanted => ?_⟩
    · rw [searchSingleton, line]
    · simp only [searchMethod, line, ownMethod_defineSingleton]

end Layered

end searches

end Library

namespace Mirror

/-- A run beside itself. -/
def building (first : Nat) : Mirror := ⟨id, first, Library.Built, True⟩

theorem building_kept {first : Nat} (positive : 0 < first) : (building first).IsKept where
  injective _ _ := id
  zero := rfl
  next _ _ := rfl
  first := positive
  adds _ built := built.methods rfl rfl
  sets _ built := built.methods rfl rfl
  binds name _ built := built.entry _ name _
  bindsSingleton name _ built := built.singletonEntry _ name _
  defines name known built := built.under name (built.layered.superclass_inside known)
  definesModule name built := built.apart name true

end Mirror

/-- A new entry is found from its class and from the classes under it, unless a class in between has an
entry of that name itself. From elsewhere, under other names and in look-ups of the other kind, all is
found as before. This holds of classes that were made one by one, which in a session they always are. -/
theorem definitions_reach_heirs (config : Config) (backend : Backend) (tellsCompiles : Bool)
    (hooks : List Hook) (contexts fuel : Nat) {firstTarget : Nat} (positive : 0 < firstTarget)
    (steps : List Session.Step) (id : ContextId) :
    (∀ library : Library, library.Built → library.LooksUp) ∧
    let later :=
      (Session.start config backend tellsCompiles hooks contexts firstTarget).after fuel steps
    let s : State := ⟨later.shared, later.contexts.getD id default⟩
    s.shared.library.Built ∧ ∀ scope (node : Node) last request t,
      During (fun ask => Engine.toplevelOf scope (node.eval fuel ask)) fuel s last request t →
        t.shared.library.Built := by
  have kept := Mirror.building_kept positive
  obtain ⟨settled, during⟩ := kept.throughout rfl Library.Built.core config backend tellsCompiles
    hooks contexts fuel steps (fun _ _ _ => trivial) id
  refine ⟨fun library built => built.layered.looksUp, settled.tidy, ?_⟩
  exact fun scope node last request t reached => (during scope node last request t reached).tidy

/-- `A` gets an `m`. `D` under it has found none before, and `C` goes on finding that of `B`. -/
theorem definitions_reach_heirs_shadowed :
    let script : Source := .seq
      [.classBody "A" none false {} .nil,
        .classBody "B" (some "A") false {} (.define "m" {} {} .nil),
        .classBody "C" (some "B") false {} .nil, .classBody "D" (some "A") false {} .nil]
    let later := (Session.start {} .lowering true [] 1 1).after 9 [{ command := .run script [] none }]
    let library := later.shared.library
    let defined := library.defineMethod 9 "m" 0
    library.Built ∧ (library.searchMethod 12 "m" = none ∧ defined.searchMethod 12 "m" = some 0) ∧
      library.searchMethod 11 "m" = some 13 ∧ defined.searchMethod 11 "m" = some 13 := by
  intro script later library defined
  have reach := definitions_reach_heirs {} .lowering true [] 1 9 Nat.one_pos
    [{ command := .run script [] none }] 0
  dsimp only at reach
  have built : library.Built := by
    simp only [library, later]
    exact reach.2.1
  have inside : 9 < library.classes.size := by decide +kernel
  have redirects := ((reach.1 library built).defineMethod 9 inside "m" 0).1
  have link : library.HasSuperclass 12 9 ∧ library.HasSuperclass 11 10 ∧
      library.HasSuperclass 10 9 := by
    unfold Library.HasSuperclass
    decide +kernel
  have absent : ∀ other ∈ library.ancestors 12, library.ownMethod other "m" = none := by
    decide +kernel
  have shadow : library.ownMethod 10 "m" = some 13 := by decide +kernel
  have before : library.searchMethod 12 "m" = none ∧ library.searchMethod 11 "m" = some 13 := by
    decide +kernel
  have seen : library.Unshadowed (library.ownMethod · "m") 12 9 :=
    ⟨.single link.1, fun other member _ => absent other (built.layered.atOrUnder_iff.1 member)⟩
  have hidden : ¬library.Unshadowed (library.ownMethod · "m") 11 9 := fun unshadowed => by
    have none := unshadowed.clear 10 (.single link.2.1) (.single link.2.2)
    cases shadow.symm.trans none
  have kept := redirects.rest 11 "m" fun sees => hidden sees.2
  exact ⟨built, ⟨before.1, redirects.seen 12 seen⟩, before.2, kept.trans before.2⟩

end CallEngine
