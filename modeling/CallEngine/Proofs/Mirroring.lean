import CallEngine.Proofs.Numbering
import CallEngine.Proofs.Renaming
/-! Two runs side by side, the second one under other identities. What they make of identities differs by
the renaming only, and whatever is known of every state of the first run is known throughout. -/
namespace CallEngine
open Eval

/-- The method exists and belongs to the class. -/
def Library.Owns (library : Library) (cls : ClassId) (id : MethodId) : Prop :=
  id < library.methods.size ∧ (library.method id).owner = cls

instance (library : Library) (cls : ClassId) (id : MethodId) : Decidable (library.Owns cls id) :=
  inferInstanceAs (Decidable (_ ∧ _))

/-- Classes keep what is above them, and methods their owners. -/
structure Library.Grows (library later : Library) : Prop where
  classes : library.classes.size ≤ later.classes.size
  lineage : ∀ id < library.classes.size, (later.cls id).lineage = (library.cls id).lineage
  owns : ∀ cls id, library.Owns cls id → later.Owns cls id

structure Mirror where
  rename : Target → Target
  /-- The first identity that is in use. -/
  first : Nat
  /-- Holds of the classes and methods of every state. -/
  tidy : Library → Prop
  /-- Whether a class may have methods that belong to another one. -/
  loose : Prop

/-- Only whether identities are the same matters, and they are given out in order. Library updates keep
it tidy. -/
structure Mirror.IsKept (c : Mirror) : Prop where
  injective : ∀ t u, c.rename t = c.rename u → t = u
  zero : c.rename ⟨0⟩ = ⟨0⟩
  next : ∀ n, 0 < n → c.rename ⟨n + 1⟩ = ⟨(c.rename ⟨n⟩).serial + 1⟩
  first : 0 < c.first
  adds {library : Library} (m : Method) : c.tidy library → c.tidy (library.addMethod m).2
  sets {library : Library} {id : MethodId} {m : Method} : m.owner = (library.method id).owner →
    c.tidy library → c.tidy (library.setMethod id m)
  binds {library : Library} {cls : ClassId} {id : MethodId} (name : String) :
    c.loose ∨ library.Owns cls id → c.tidy library → c.tidy (library.defineMethod cls name id)
  bindsSingleton {library : Library} {cls : ClassId} {id : MethodId} (name : String) :
    c.loose ∨ library.Owns cls id → c.tidy library → c.tidy (library.defineSingleton cls name id)
  defines {library : Library} {superclass : Option ClassId} (name : String) :
    (∀ id, superclass = some id → ∃ constant, library.constant constant = .ok id) →
      c.tidy library → c.tidy (library.defineClass name (superclass.getD Core.object)).2
  definesModule {library : Library} (name : String) :
    c.tidy library → c.tidy (library.defineModule name).2

namespace Library

theorem Grows.refl (library : Library) : library.Grows library :=
  ⟨Nat.le_refl _, fun _ _ => rfl, fun _ _ => id⟩

theorem Grows.of_empty (library : Library) : Grows {} library :=
  ⟨Nat.zero_le _, fun _ => nofun, fun _ _ owned => absurd owned.1 (Nat.not_lt_zero _)⟩

theorem Grows.trans {a b c : Library} (first : a.Grows b) (second : b.Grows c) : a.Grows c where
  classes := Nat.le_trans first.classes second.classes
  lineage id inside :=
    (second.lineage id (Nat.lt_of_lt_of_le inside first.classes)).trans (first.lineage id inside)
  owns cls id owned := second.owns cls id (first.owns cls id owned)

theorem Owns.addMethod {library : Library} {cls : ClassId} {id : MethodId}
    (owned : library.Owns cls id) (m : Method) : (library.addMethod m).2.Owns cls id := by
  refine ⟨?_, ?_⟩
  · simpa [Library.addMethod] using Nat.lt_succ_of_lt owned.1
  · rw [method_addMethod, if_neg (Nat.ne_of_lt owned.1)]
    exact owned.2

theorem owns_addMethod (library : Library) (m : Method) :
    (library.addMethod m).2.Owns m.owner (library.addMethod m).1 := by
  refine ⟨by simp [addMethod], ?_⟩
  rw [method_addMethod]
  exact congrArg Method.owner (if_pos rfl)

theorem Grows.addMethod (library : Library) (m : Method) :
    library.Grows (library.addMethod m).2 :=
  ⟨Nat.le_refl _, fun _ _ => rfl, fun _ _ owned => owned.addMethod m⟩

theorem Grows.setMethod {library : Library} {id : MethodId} {m : Method}
    (owner : m.owner = (library.method id).owner) : library.Grows (library.setMethod id m) := by
  refine ⟨Nat.le_refl _, fun _ _ => rfl, fun cls other owned => ⟨?_, ?_⟩⟩
  · simpa [Library.setMethod] using owned.1
  · rcases library.method_setMethod id other m with old | ⟨rfl, new⟩
    · rw [old]
      exact owned.2
    · rw [new, owner]
      exact owned.2

theorem targets_setMethod {library : Library} {id : MethodId} {m : Method}
    (target : m.target = (library.method id).target) :
    (library.setMethod id m).methods.map Method.target = library.methods.map Method.target := by
  apply Array.ext_getElem?
  intro other
  simp only [setMethod, Array.getElem?_map, Array.getElem?_setIfInBounds]
  by_cases here : id = other
  · subst here
    by_cases inside : id < library.methods.size
    · simp [inside, target, method]
    · simp [inside]
  · rw [if_neg here]

/-- Changes to the classes that leave their lineage alone. -/
theorem Grows.modify (library : Library) (id : ClassId) {change : Class → Class}
    (lineage : ∀ cls, (change cls).lineage = cls.lineage) :
    library.Grows { library with classes := library.classes.modify id change } := by
  refine ⟨by simp, fun other inside => ?_, fun _ _ owned => owned⟩
  simp only [cls, Array.getD_eq_getD_getElem?, Array.getElem?_modify]
  split
  · cases library.classes[other]? with
    | none => rfl
    | some found => exact lineage found
  · rfl

theorem Grows.register (library : Library) (added : Class) :
    library.Grows (library.register added).2 := by
  refine ⟨by simp [Library.register], fun other inside => ?_, fun _ _ owned => owned⟩
  simp only [cls, Library.register, Array.getD_eq_getD_getElem?, Array.getElem?_push,
    Nat.ne_of_lt inside, if_false]

end Library

namespace Mirror

variable {c : Mirror}

/-- What is known of every state of the first run. -/
structure Proper (c : Mirror) (s : State) : Prop extends s.Numbered c.first where
  tidy : c.tidy s.shared.library

structure Later (c : Mirror) (s t : State) : Prop where
  proper : c.Proper t
  next : s.shared.nextTarget ≤ t.shared.nextTarget
  grows : s.shared.library.Grows t.shared.library

/-- The ends of two runs, the first one from `s`. -/
structure Agrees (c : Mirror) {α β : Type} (g : α → β) (s : State)
    (left : EStateM.Result Halt State α) (right : EStateM.Result Halt State β) : Prop where
  same : right = renamedResult c.rename g left
  later : c.Later s (finalState left)

/-- What `y` does under other identities is what `x` does. `g` renames what comes out. -/
def Mirrors (c : Mirror) {α β : Type} (g : α → β) (x : Eval α) (y : Eval β) : Prop :=
  ∀ s, c.Proper s → c.Agrees g s (x s) (y (s.renamed c.rename))

namespace Later

variable {s t u : State}

theorem refl (proper : c.Proper s) : c.Later s s := ⟨proper, Nat.le_refl _, .refl _⟩

theorem trans (first : c.Later s t) (second : c.Later t u) : c.Later s u :=
  ⟨second.proper, Nat.le_trans first.next second.next, first.grows.trans second.grows⟩

theorem context (proper : c.Proper s) {context : Context}
    (given : s.shared.Gave c.first context.identities) : c.Later s { s with context } :=
  ⟨⟨⟨proper.shared, given⟩, proper.tidy⟩, Nat.le_refl _, .refl _⟩

theorem changed (proper : c.Proper s) {shared : Shared} (numbered : shared.Numbered c.first)
    (next : s.shared.nextTarget ≤ shared.nextTarget) (tidy : c.tidy shared.library)
    (grows : s.shared.library.Grows shared.library) : c.Later s { s with shared } :=
  ⟨⟨⟨numbered, proper.context.mono next⟩, tidy⟩, next, grows⟩

/-- The library and the closures stay as they are. -/
theorem unchanged (proper : c.Proper s) {shared : Shared} (library : shared.library = s.shared.library)
    (closures : shared.closures = s.shared.closures)
    (nextTarget : shared.nextTarget = s.shared.nextTarget) : c.Later s { s with shared } :=
  changed proper (proper.shared.of_eq (by rw [library]) closures nextTarget)
    (Nat.le_of_eq nextTarget.symm) (library ▸ proper.tidy) (library ▸ .refl _)

theorem library (proper : c.Proper s) {library : Library}
    (methods : library.methods.map Method.target = s.shared.library.methods.map Method.target)
    (tidy : c.tidy library) (grows : s.shared.library.Grows library) :
    c.Later s { s with shared.library := library } :=
  changed proper (proper.shared.of_eq methods rfl rfl) (Nat.le_refl _) tidy grows

theorem addClosure (proper : c.Proper s) {binding : Binding} (body : ClosureBody)
    (kind : ClosureKind) (captured : s.shared.Gave c.first binding.frame.identities) :
    c.Later s { s with shared := (s.shared.addClosure body binding kind).2 } :=
  changed proper (proper.shared.addClosure body kind captured) (Nat.le_succ _) proper.tidy (.refl _)

theorem freshTarget (proper : c.Proper s) :
    c.Later s { s with shared := s.shared.freshTarget.2 } :=
  changed proper proper.shared.freshTarget (Nat.le_succ _) proper.tidy (.refl _)

theorem gave (later : c.Later s t) {targets : List Target} (given : s.shared.Gave c.first targets) :
    t.shared.Gave c.first targets :=
  given.mono later.next

end Later

namespace Agrees

variable {α β γ δ : Type} {g : α → β} {h : γ → δ} {s t : State}

theorem after {left : EStateM.Result Halt State α} {right : EStateM.Result Halt State β}
    (agrees : c.Agrees g t left right) (later : c.Later s t) : c.Agrees g s left right :=
  ⟨agrees.same, later.trans agrees.later⟩

theorem bind {x : Eval α} {y : Eval β} {f : α → Eval γ} {f' : β → Eval δ}
    (first : c.Agrees g s (x s) (y (s.renamed c.rename)))
    (rest : ∀ a t, x s = .ok a t → c.Later s t →
      c.Agrees h t (f a t) (f' (g a) (t.renamed c.rename))) :
    c.Agrees h s ((x >>= f) s) ((y >>= f') (s.renamed c.rename)) := by
  obtain ⟨same, later⟩ := first
  simp only [Bind.bind, EStateM.bind, same]
  cases result : x s with
  | ok a t =>
    rw [result] at later
    exact (rest a t result later).after later
  | error halt t =>
    rw [result] at later
    exact ⟨rfl, later⟩

theorem ensuring {x : Eval α} {y : Eval β} {after : State → State}
    (agrees : c.Agrees g s (x s) (y (s.renamed c.rename)))
    (undoes : ∀ t, (after t).renamed c.rename = after (t.renamed c.rename))
    (later : ∀ t, c.Later s t → c.Later s (after t)) :
    c.Agrees g s (Eval.ensuring x after s) (Eval.ensuring y after (s.renamed c.rename)) := by
  obtain ⟨same, ends⟩ := agrees
  simp only [Eval.ensuring, same]
  cases result : x s with
  | ok a t | error halt t =>
    rw [result] at ends
    refine ⟨?_, later t ends⟩
    simp only [renamedResult, undoes]

end Agrees

namespace Mirrors

variable {α β γ δ : Type} {g : α → β} {h : γ → δ} {x x' : Eval α} {y y' : Eval β}

theorem pure (a : α) : c.Mirrors g (Pure.pure a) (Pure.pure (g a)) :=
  fun _ proper => ⟨rfl, .refl proper⟩

theorem halt (halt : Halt) :
    c.Mirrors g (throw halt : Eval α) (throw (halt.renamed c.rename) : Eval β) :=
  fun _ proper => ⟨rfl, .refl proper⟩

theorem raise (e : EvalError) : c.Mirrors g (Eval.raise e : Eval α) (Eval.raise e : Eval β) :=
  halt (.signal (.error e))

theorem bind {f : α → Eval γ} {f' : β → Eval δ} (first : c.Mirrors g x y)
    (rest : ∀ a, c.Mirrors h (f a) (f' (g a))) : c.Mirrors h (x >>= f) (y >>= f') :=
  fun s proper => (first s proper).bind fun a t _ later => rest a t later.proper

theorem map {x y : Eval α} (holds : c.Mirrors id x y) (f : α → γ) :
    c.Mirrors id (do return f (← x)) (do return f (← y)) :=
  holds.bind fun _ => pure _

theorem read {view : State → α} {view' : State → β}
    (same : ∀ s, view' (s.renamed c.rename) = g (view s)) :
    c.Mirrors g (Eval.read view) (Eval.read view') := by
  intro s proper
  refine ⟨?_, .refl proper⟩
  change EStateM.Result.ok (view' (s.renamed c.rename)) _ = _
  rw [same]
  rfl

theorem raiseWith {error : State → EvalError}
    (same : ∀ s, error (s.renamed c.rename) = error s) :
    c.Mirrors g (Eval.raiseWith error : Eval α) (Eval.raiseWith error : Eval β) :=
  (read (g := id) same).bind raise

theorem update {f : State → α × State} {f' : State → β × State}
    (same : ∀ s, c.Proper s → f' (s.renamed c.rename) = (g (f s).1, (f s).2.renamed c.rename))
    (later : ∀ s, c.Proper s → c.Later s (f s).2) :
    c.Mirrors g (modifyGet f) (modifyGet f') := by
  intro s proper
  refine ⟨?_, later s proper⟩
  change EStateM.Result.ok (f' (s.renamed c.rename)).1 (f' (s.renamed c.rename)).2 = _
  rw [same s proper]
  rfl

theorem ite {p q : Prop} [Decidable p] [Decidable q] (same : q ↔ p) (yes : c.Mirrors g x y)
    (no : c.Mirrors g x' y') : c.Mirrors g (if p then x else x') (if q then y else y') := by
  by_cases holds : p
  · rw [if_pos holds, if_pos (same.2 holds)]
    exact yes
  · rw [if_neg holds, if_neg (mt same.1 holds)]
    exact no

theorem observe {x y : Eval Value} (holds : c.Mirrors id x y) :
    c.Mirrors (Outcome.renamed c.rename) (Eval.observe x) (Eval.observe y) := by
  intro s proper
  obtain ⟨same, later⟩ := holds s proper
  simp only [Eval.observe, same]
  cases result : x s with
  | ok value t =>
    rw [result] at later
    exact ⟨rfl, later⟩
  | error halt t =>
    rw [result] at later
    cases halt <;> exact ⟨rfl, later⟩

theorem ofOutcome (outcome : Outcome) :
    c.Mirrors id (Eval.ofOutcome outcome) (Eval.ofOutcome (outcome.renamed c.rename)) := by
  cases outcome with
  | ok value => exact pure value
  | error g => exact halt (.signal g)

theorem orFault (result : Except Fault α) :
    c.Mirrors g (Eval.orFault result) (Eval.orFault (result.map g)) := by
  cases result with
  | ok a => exact pure a
  | error fault => exact halt (.fault fault)

theorem orRaise (result : Except EvalError α) :
    c.Mirrors id (Eval.orRaise result) (Eval.orRaise result) := by
  cases result with
  | ok a => exact pure a
  | error e => exact raise e

theorem memory (f : Memory → α × Memory) :
    c.Mirrors id
      (modifyGet fun s : State => ((f s.shared.memory).1,
        { s with shared.memory := (f s.shared.memory).2 }))
      (modifyGet fun s : State => ((f s.shared.memory).1,
        { s with shared.memory := (f s.shared.memory).2 })) :=
  update (fun _ _ => rfl) fun _ proper => .unchanged proper rfl rfl rfl

theorem withScope (env : Env) (holds : c.Mirrors g x y) :
    c.Mirrors g (Eval.withScope env x) (Eval.withScope env y) := by
  have entered : c.Mirrors id
      (modify fun s : State => { s with context.scopes := env :: s.context.scopes })
      (modify fun s : State => { s with context.scopes := env :: s.context.scopes }) :=
    update (fun _ _ => rfl) fun _ proper => .context proper proper.context
  refine entered.bind fun _ s proper => ?_
  refine (holds s proper).ensuring (fun _ => rfl) fun t later => later.trans ?_
  exact .context later.proper later.proper.context

end Mirrors

end Mirror

end CallEngine
