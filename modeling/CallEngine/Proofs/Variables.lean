import CallEngine.Proofs.Postconditions
import CallEngine.Session.Scopes
/-! Reading variables after a write, after cells got slots and after scopes got variables, whatever
environments share. -/
namespace CallEngine

/-- What a slot holds, in a cell whose scope has so many variables by now. -/
def slotValue (declared offset : Nat) (slots : Array Value) : Except Fault Value :=
  match slots[offset]? with
  | some value => .ok value
  | none => if offset < declared then .ok .nil else .error (.offsetOutOfRange offset declared)

theorem getElem?_padded (slots : Array Value) (declared offset : Nat) :
    (padded slots declared)[offset]? =
      if offset < slots.size then slots[offset]?
      else if offset < declared then some .nil else none := by
  rw [padded, Array.getElem?_append]
  split
  · rfl
  · rw [Array.getElem?_replicate]
    congr 1
    simp only [eq_iff_iff]
    omega

/-- A slot that is not there reads like one that was just made. -/
theorem slotValue_padded (declared offset : Nat) (slots : Array Value) :
    slotValue declared offset (padded slots declared) = slotValue declared offset slots := by
  unfold slotValue
  rw [getElem?_padded]
  by_cases there : offset < slots.size
  · rw [if_pos there]
  · rw [if_neg there, Array.getElem?_eq_none (Nat.le_of_not_lt there)]
    by_cases inside : offset < declared
    · rw [if_pos inside, if_pos inside]
    · rw [if_neg inside]

theorem slotValue_setIfInBounds {offset : Nat} {slots : Array Value} (there : offset < slots.size)
    (declared other : Nat) (value : Value) :
    slotValue declared other (slots.setIfInBounds offset value) =
      if other = offset then .ok value else slotValue declared other slots := by
  unfold slotValue
  rw [Array.getElem?_setIfInBounds]
  by_cases same : other = offset
  · subst same
    rw [if_pos rfl, if_pos there, if_pos rfl]
  · rw [if_neg (Ne.symm same), if_neg same]

theorem slotValue_stored {declared offset : Nat} {slots : Array Value}
    (room : offset < slots.size ∨ offset < declared) (other : Nat) (value : Value) :
    slotValue declared other (stored declared offset value slots) =
      if other = offset then .ok value else slotValue declared other slots := by
  unfold stored
  split
  · next there => exact slotValue_setIfInBounds there declared other value
  · next missing =>
    have there : offset < (padded slots declared).size := by
      rw [size_padded]
      omega
    rw [slotValue_setIfInBounds there, slotValue_padded]

namespace Memory

/-- The two addresses are those of one variable. -/
def SameVariable (env₁ : Env) (offset₁ depth₁ : Nat) (env₂ : Env) (offset₂ depth₂ : Nat) : Prop :=
  offset₁ = offset₂ ∧ ∃ id, ancestor env₁ depth₁ = .ok id ∧ ancestor env₂ depth₂ = .ok id

variable {m m' : Memory} {env env₁ env₂ : Env} {offset offset₁ offset₂ depth depth₁ depth₂ : Nat}
  {id : CellId} {value : Value}

theorem read_of_ancestor (found : ancestor env depth = .ok id) (m : Memory) (offset : Nat) :
    m.read env offset depth =
      (m.slots id >>= fun slots => slotValue (m.declared id) offset slots) := by
  rw [read, found]
  rfl

theorem read_of_no_ancestor {fault : Fault} (missing : ancestor env depth = .error fault)
    (m : Memory) (offset : Nat) : m.read env offset depth = .error fault := by
  rw [read, missing]
  rfl

theorem slots_change (m : Memory) (id : CellId) (f : Array Value → Array Value) (other : CellId) :
    (m.change id f).slots other = if other = id then (m.slots id).map f else m.slots other := by
  unfold slots
  by_cases here : other = id
  · rw [cell_change, if_pos here, if_pos here, Cell.slots_change]
    cases (m.cell id).slots <;> rfl
  · rw [cell_change, if_neg here, if_neg here]

/-- What is read from a cell that was changed. -/
theorem read_change (aimed : ancestor env depth = .ok id) (m : Memory)
    (f : Array Value → Array Value) (offset : Nat) : (m.change id f).read env offset depth =
      (m.slots id >>= fun slots => slotValue (m.declared id) offset (f slots)) := by
  rw [read_of_ancestor aimed, slots_change, if_pos rfl, declared_change]
  cases m.slots id <;> rfl

theorem read_change_other (other : ancestor env depth ≠ .ok id) (m : Memory)
    (f : Array Value → Array Value) (offset : Nat) :
    (m.change id f).read env offset depth = m.read env offset depth := by
  cases found : ancestor env depth with
  | error fault => rw [read_of_no_ancestor found, read_of_no_ancestor found]
  | ok cell =>
    have elsewhere : cell ≠ id := by
      rintro rfl
      exact other found
    rw [read_of_ancestor found, read_of_ancestor found, slots_change, if_neg elsewhere,
      declared_change]

/-- Where something is written, there is room for it. -/
theorem writable_room (found : m.writable env offset depth = .ok id) :
    ancestor env depth = .ok id ∧
      ∃ slots, m.slots id = .ok slots ∧ (offset < slots.size ∨ offset < m.declared id) := by
  obtain ⟨cell, here, rest⟩ := Except.ok_of_bind found
  obtain ⟨slots, storage, done⟩ := Except.ok_of_bind rest
  split at done
  · next there =>
    cases done
    exact ⟨here, slots, storage, .inl there⟩
  · split at done <;> cases done
    next inside => exact ⟨here, slots, storage, .inr inside⟩

theorem write_ok (written : m.write env offset depth value = .ok m') :
    ∃ id, m.writable env offset depth = .ok id ∧
      m' = m.change id (stored (m.declared id) offset value) := by
  obtain ⟨id, found, done⟩ := Except.ok_of_bind written
  cases done
  exact ⟨id, found, m.put_eq_change id offset value⟩

/-- What is read after a write. -/
theorem read_write (written : m.write env₁ offset₁ depth₁ value = .ok m')
    (env₂ : Env) (offset₂ depth₂ : Nat) :
    (SameVariable env₁ offset₁ depth₁ env₂ offset₂ depth₂ →
      m'.read env₂ offset₂ depth₂ = .ok value) ∧
    (¬SameVariable env₁ offset₁ depth₁ env₂ offset₂ depth₂ →
      m'.read env₂ offset₂ depth₂ = m.read env₂ offset₂ depth₂) := by
  obtain ⟨id, found, rfl⟩ := write_ok written
  obtain ⟨here, slots, storage, room⟩ := writable_room found
  constructor
  · rintro ⟨rfl, other, own, aimed⟩
    obtain rfl := Except.ok.inj (here.symm.trans own)
    rw [read_change aimed, storage]
    exact (slotValue_stored room _ value).trans (if_pos rfl)
  · intro differs
    by_cases aimed : ancestor env₂ depth₂ = .ok id
    · have other : offset₂ ≠ offset₁ := fun same => differs ⟨same.symm, id, here, aimed⟩
      rw [read_change aimed, read_of_ancestor aimed, storage]
      exact (slotValue_stored room _ value).trans (if_neg other)
    · exact read_change_other aimed m _ offset₂

theorem read_grow (grown : m.grow env = .ok m') (other : Env) (offset depth : Nat) :
    m'.read other offset depth = m.read other offset depth := by
  rcases grow_ok grown with rfl | ⟨id, rfl⟩
  · rfl
  · by_cases aimed : ancestor other depth = .ok id
    · rw [read_change aimed, read_of_ancestor aimed]
      simp only [slotValue_padded]
    · exact read_change_other aimed m _ offset

/-- With more variables in its scope, a cell still has what it had. -/
theorem slotValue_mono {declared declared' : Nat} (more : declared ≤ declared') {slots : Array Value}
    (has : slotValue declared offset slots = .ok value) :
    slotValue declared' offset slots = .ok value := by
  unfold slotValue at has ⊢
  split at has
  · exact has
  · split at has <;> cases has
    next inside => exact if_pos (Nat.lt_of_lt_of_le inside more)

theorem read_declare (scope : StaticId) (name : String)
    (has : m.read env offset depth = .ok value) :
    (m.declare scope name).read env offset depth = .ok value := by
  cases found : ancestor env depth with
  | error fault =>
    rw [read_of_no_ancestor found] at has
    cases has
  | ok id =>
    rw [read_of_ancestor found] at has ⊢
    have kept : (m.declare scope name).slots id = m.slots id := rfl
    rw [kept]
    cases storage : m.slots id with
    | error fault =>
      rw [storage] at has
      cases has
    | ok slots =>
      rw [storage] at has
      exact slotValue_mono ((Evolves.declare m scope name).sizes _) has

/-- What evaluation does to memory. -/
theorem Evolves.motion : FreeMotion fun s t => s.shared.memory.Evolves t.shared.memory where
  refl _ := .refl _
  trans := .trans
  stack _ _ := .refl _
  scopes _ _ := .refl _
  enterLive _ _ := .refl _
  leaveLive _ _ := .refl _
  settle _ := .refl _
  fire _ _ := .refl _
  promote s id name := by
    have same := congrArg (fun s : State => s.shared.memory) (s.promote_plain id name)
    rw [show (s.promote id name).2.shared.memory = s.shared.memory from same]
    exact .refl _
  quiet quiet s := by
    rw [quiet.memory s]
    exact .refl _
  memory _ evolves := evolves
  newClosure _ _ _ _ := .refl _
  newMethod _ _ _ _ := .refl _

theorem Evolves.hosting : Hosting (Moves fun s t => s.shared.memory.Evolves t.shared.memory) :=
  Evolves.motion.hosting fun _ => .refl _

end Memory

namespace Session
open Memory (Evolves)

theorem Command.needs_evolves (command : Command) :
    command.Needs (Moves fun s t => s.shared.memory.Evolves t.shared.memory) := by
  cases command with
  | define => exact fun _ _ _ _ => .refl _
  | copyMethod => exact fun _ _ _ => .refl _
  | interrupt | addHook | removeHook => exact fun _ _ => .refl _
  | _ => trivial

theorem after_evolves (fuel : Nat) (session : Session) (steps : List Step) :
    session.shared.memory.Evolves (session.after fuel steps).shared.memory := by
  apply after_shared (R := fun a b => a.memory.Evolves b.memory) (fun _ => .refl _) .trans
    (fun _ evolves => evolves)
  intro step _ names
  exact Evolves.hosting.performAny Evolves.motion.chains.read fuel names step.command.needs_evolves

theorem start_evolves (config : Config) (backend : Backend) (tellsCompiles : Bool)
    (hooks : List Hook) (contexts firstTarget : Nat) : Evolves {}
      (start config backend tellsCompiles hooks contexts firstTarget).shared.memory := by
  have core : (Shared.start config backend hooks firstTarget).memory = {} := rfl
  refine addContexts_keeps (P := fun session => Evolves {} session.shared.memory)
    (fun session evolves => ?_) (core ▸ .refl _) contexts
  exact (evolves.trans (.addStatic _ {})).trans (.allocate _ _ [])

end Session

namespace Scopes.Session
open Memory (Evolves)

/-- The session after some steps. -/
def after (session : Session) : List Step → Session
  | [] => session
  | first :: rest => (session.step first).2.after rest

theorem addStatic_evolves (session : Session) (scope : StaticScope) (layout : Option Arity) :
    session.memory.Evolves (session.addStatic scope layout).2.memory := by
  unfold addStatic
  split
  · exact .addStatic _ _
  · exact .refl _

theorem update_evolves (session : Session) {memory : Except Fault Memory}
    (evolves : ∀ m, memory = .ok m → session.memory.Evolves m) :
    session.memory.Evolves (session.update memory).2.memory := by
  cases memory with
  | ok memory => exact evolves memory rfl
  | error fault => exact .refl _

theorem step_evolves (session : Session) (step : Step) :
    session.memory.Evolves (session.step step).2.memory := by
  cases step with
  | method | closure => exact session.addStatic_evolves _ _
  | declare scope name => exact .declare _ scope name
  | enter scope parent => exact .allocate _ scope (parent.elim [] session.env)
  | clone env => exact .clone _ _
  | set env offset depth value => exact session.update_evolves fun _ => .write
  | setArguments env values count => exact session.update_evolves fun _ => .writeArguments
  | grow env => exact session.update_evolves fun _ => .grow
  | get env offset depth =>
    unfold Session.step
    dsimp only
    split <;> exact .refl _
  | parent env =>
    simp only [Session.step, Session.parent]
    split
    · exact .refl _
    · split <;> exact .refl _
  | find | static | arguments | hasVariables | sameStatic | outline => exact .refl _

theorem after_evolves (session : Session) (steps : List Step) :
    session.memory.Evolves (session.after steps).memory := by
  induction steps generalizing session with
  | nil => exact .refl _
  | cons first rest ih => exact (session.step_evolves first).trans (ih _)

end Scopes.Session

namespace Memory

theorem snug_empty : Snug {} := by
  intro id slots has
  have none : (({} : Memory).cell id).slots = none := by simp [cell, default, instInhabitedCell.default]
  cases none.symm.trans has

/-- A write is read wherever the same variable is reached, and changes nothing else that is read. Slots
that a cell gets change nothing that is read, and further variables nothing that could be read. In
every state of a session storage has slots, no more of them than its scope has variables, and
later steps take none away. Nor do evaluations, wherever they begin and however they end. -/
theorem variables_lawful (m : Memory) :
    (∀ env₁ offset₁ depth₁ value m', m.write env₁ offset₁ depth₁ value = .ok m' →
      ∀ env₂ offset₂ depth₂,
        (SameVariable env₁ offset₁ depth₁ env₂ offset₂ depth₂ →
          m'.read env₂ offset₂ depth₂ = .ok value) ∧
        (¬SameVariable env₁ offset₁ depth₁ env₂ offset₂ depth₂ →
          m'.read env₂ offset₂ depth₂ = m.read env₂ offset₂ depth₂)) ∧
    (∀ env m', m.grow env = .ok m' →
      ∀ other offset depth, m'.read other offset depth = m.read other offset depth) ∧
    (∀ scope name env offset depth value, m.read env offset depth = .ok value →
      (m.declare scope name).read env offset depth = .ok value) ∧
    (∀ steps more, let session := ({} : Scopes.Session).after steps
      session.memory.Snug ∧ session.memory.Retains (session.after more).memory) ∧
    (∀ config backend tellsCompiles hooks contexts firstTarget fuel steps fuel' more,
      let start := Session.start config backend tellsCompiles hooks contexts firstTarget
      let session := start.after fuel steps
      session.shared.memory.Snug ∧
        session.shared.memory.Retains (session.after fuel' more).shared.memory) ∧
    (∀ fuel node s, let later := (finalState (Engine.evalNode fuel node s)).shared.memory
      s.shared.memory.Retains later ∧ (s.shared.memory.Snug → later.Snug)) := by
  refine ⟨?_, ?_, ?_, ?_, ?_, ?_⟩
  · intro env₁ offset₁ depth₁ value m' written
    exact read_write written
  · intro env m' grown
    exact read_grow grown
  · intro scope name env offset depth value has
    exact read_declare scope name has
  · intro steps more session
    have reached := Scopes.Session.after_evolves {} steps
    exact ⟨reached.snug snug_empty, (session.after_evolves more).cells⟩
  · intro config backend tellsCompiles hooks contexts firstTarget fuel steps fuel' more start session
    have started :=
      Session.start_evolves config backend tellsCompiles hooks contexts firstTarget
    have reached := started.trans (start.after_evolves fuel steps)
    exact ⟨reached.snug snug_empty, (session.after_evolves fuel' more).cells⟩
  · intro fuel node s later
    have evolves := Evolves.hosting.evalNode fuel node s
    exact ⟨evolves.cells, evolves.snug⟩

/-- A variable that was declared too late for its cell is nil, until it is written from a scope further
in and seen from its own. -/
theorem variables_lawful_late :
    let before := (({ statics := #[{ vars := ["a"] }] } : Memory).allocate 0 []).2
    let m := (before.declare 0 "b").allocate 0 [0] |>.2
    m.read [0] 1 0 = .ok .nil ∧ SameVariable [1, 0] 1 1 [0] 1 0 ∧
      ∃ m', m.write [1, 0] 1 1 (.bool true) = .ok m' ∧ m'.read [0] 1 0 = .ok (.bool true) ∧
        m'.read [1, 0] 1 0 = m.read [1, 0] 1 0 := by
  intro before m
  have same : SameVariable [1, 0] 1 1 [0] 1 0 := ⟨rfl, 0, rfl, rfl⟩
  have other : ¬SameVariable [1, 0] 1 1 [1, 0] 1 0 := by
    rintro ⟨-, id, own, aimed⟩
    have outer : 0 = id := Except.ok.inj own
    have inner : 1 = id := Except.ok.inj aimed
    cases outer.trans inner.symm
  have law := (variables_lawful m).1 [1, 0] 1 1 (.bool true) _ rfl
  exact ⟨rfl, same, _, rfl, (law [0] 1 0).1 same, (law [1, 0] 1 0).2 other⟩

end Memory

end CallEngine
