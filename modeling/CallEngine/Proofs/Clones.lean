import CallEngine.Proofs.Variables
/-! A copy of an environment: what is seen through it is the same at first, and what happens to one of
the two is not seen through the other. -/
namespace CallEngine.Memory

/-- What is seen through an environment: its variables, and the parameters from every scope on. -/
def SameView (a : Memory) (env : Env) (b : Memory) (env' : Env) : Prop :=
  (∀ offset depth, a.read env offset depth = b.read env' offset depth) ∧
    ∀ depth, a.arguments (env.drop depth) = b.arguments (env'.drop depth)

/-- A change through an environment, `depth` scopes outwards. -/
inductive Edit where
  | set (offset depth : Nat) (value : Value)
  | setArguments (depth : Nat) (values : List Value) (count : Nat)
  | grow (depth : Nat)

/-- A fault leaves memory as it was. -/
def edit (m : Memory) (env : Env) : Edit → Memory
  | .set offset depth value => (m.write env offset depth value).toOption.getD m
  | .setArguments depth values count =>
    (m.writeArguments (env.drop depth) values count).toOption.getD m
  | .grow depth => (m.grow (env.drop depth)).toOption.getD m

inductive Side where
  | original | copy
deriving DecidableEq, Repr

def Side.env (env copied : Env) : Side → Env
  | original => env
  | copy => copied

/-- A change through one of two environments, or of a scope. -/
inductive Change where
  | edit (side : Side) (edit : Edit)
  | declare (scope : StaticId) (name : String)

namespace Change

/-- Whether the change is made through that environment or is one of a scope. -/
def concerns (side : Side) : Change → Bool
  | edit own _ => own = side
  | declare .. => true

end Change

def changed (m : Memory) (env : Side → Env) : Change → Memory
  | .edit side edit => m.edit (env side) edit
  | .declare scope name => m.declare scope name

/-- The memory after some changes. -/
def after (m : Memory) (env : Side → Env) (changes : List Change) : Memory :=
  changes.foldl (changed · env) m

/-- The cells of the two environments are alike, and so are the scopes. -/
structure Alike (a : Memory) (env : Env) (b : Memory) (env' : Env) : Prop where
  statics : a.statics = b.statics
  cells : env.map a.cell = env'.map b.cell

variable {a b m : Memory} {env env' other : Env} {offset depth : Nat} {id : CellId} {value : Value}

namespace Alike

theorem drop (alike : Alike a env b env') (depth : Nat) :
    Alike a (env.drop depth) b (env'.drop depth) := by
  refine ⟨alike.statics, ?_⟩
  rw [List.map_drop, List.map_drop, alike.cells]

/-- Both environments end before that depth, or both have a cell there. -/
theorem ancestor (alike : Alike a env b env') (depth : Nat) :
    (Memory.ancestor env depth = .error (.chainTooShort depth) ∧
      Memory.ancestor env' depth = .error (.chainTooShort depth)) ∨
    ∃ id id', Memory.ancestor env depth = .ok id ∧ Memory.ancestor env' depth = .ok id' ∧
      a.cell id = b.cell id' := by
  have same : env[depth]?.map a.cell = env'[depth]?.map b.cell := by
    rw [← List.getElem?_map, ← List.getElem?_map, alike.cells]
  unfold Memory.ancestor
  cases left : env[depth]? with
  | none =>
    cases right : env'[depth]? with
    | none => exact .inl ⟨rfl, rfl⟩
    | some id' =>
      rw [left, right] at same
      cases same
  | some id =>
    cases right : env'[depth]? with
    | none =>
      rw [left, right] at same
      cases same
    | some id' =>
      rw [left, right] at same
      exact .inr ⟨id, id', rfl, rfl, Option.some.inj same⟩

theorem static (alike : Alike a env b env') (id : StaticId) : a.static id = b.static id := by
  rw [Memory.static, alike.statics, Memory.static]

theorem read (alike : Alike a env b env') (offset depth : Nat) :
    a.read env offset depth = b.read env' offset depth := by
  rcases alike.ancestor depth with ⟨left, right⟩ | ⟨id, id', left, right, same⟩
  · rw [read_of_no_ancestor left, read_of_no_ancestor right]
  · have slots : a.slots id = b.slots id' := by rw [Memory.slots, same, Memory.slots]
    have declared : a.declared id = b.declared id' := by
      rw [Memory.declared, same, alike.static, Memory.declared]
    rw [read_of_ancestor left, read_of_ancestor right, slots, declared]

theorem arguments (alike : Alike a env b env') : a.arguments env = b.arguments env' := by
  induction env generalizing env' with
  | nil =>
    cases env' with
    | nil => rfl
    | cons id' outer' => cases alike.cells
  | cons id outer ih =>
    cases env' with
    | nil => cases alike.cells
    | cons id' outer' =>
      obtain ⟨same, rest⟩ := List.cons.inj alike.cells
      have own : a.cellArguments id = b.cellArguments id' := by
        simp only [cellArguments, same, alike.static]
      have scope : a.static (a.cell id).scope = b.static (b.cell id').scope := by
        rw [same, alike.static]
      rw [Memory.arguments, Memory.arguments, own, scope, ih ⟨alike.statics, rest⟩]

theorem sameView (alike : Alike a env b env') : SameView a env b env' :=
  ⟨alike.read, fun depth => (alike.drop depth).arguments⟩

theorem refl (m : Memory) (env : Env) : Alike m env m env := ⟨rfl, rfl⟩

end Alike

theorem ancestor_mem (found : ancestor env depth = .ok id) : id ∈ env := by
  unfold ancestor at found
  split at found <;> cases found
  next here => exact List.mem_of_getElem? here

theorem innermost_ok (found : m.innermost env = .ok id) : ancestor env 0 = .ok id := by
  obtain ⟨cell, here, rest⟩ := Except.ok_of_bind found
  obtain ⟨slots, -, done⟩ := Except.ok_of_bind rest
  cases done
  exact here

namespace Edit

/-- The cell whose slots change, and how they do. -/
def plan (m : Memory) (env : Env) : Edit → Option (CellId × (Array Value → Array Value))
  | set offset depth value =>
    match m.writable env offset depth with
    | .ok id => some (id, stored (m.declared id) offset value)
    | .error _ => none
  | setArguments depth values count =>
    if count = 0 then none
    else match m.innermost (env.drop depth) with
      | .ok id => some (id, (overlay · 0 (values.take count)))
      | .error _ => none
  | grow depth =>
    match ancestor (env.drop depth) 0 with
    | .ok id =>
      if (m.cell id).slots.isSome then some (id, (padded · (m.declared id))) else none
    | .error _ => none

end Edit

theorem edit_eq (m : Memory) (env : Env) (e : Edit) : m.edit env e =
    match e.plan m env with
    | some (id, f) => m.change id f
    | none => m := by
  cases e with
  | set offset depth value =>
    simp only [edit, write, Edit.plan]
    cases m.writable env offset depth with
    | error fault => rfl
    | ok id => exact m.put_eq_change id offset value
  | setArguments depth values count =>
    simp only [edit, writeArguments, Edit.plan]
    split
    · rfl
    · cases m.innermost (env.drop depth) <;> rfl
  | grow depth =>
    simp only [edit, grow, Edit.plan]
    cases ancestor (env.drop depth) 0 with
    | error fault => rfl
    | ok id =>
      simp only [bind, Except.bind]
      cases (m.cell id).slots with
      | some slots => rfl
      | none =>
        dsimp only
        split <;> rfl

/-- Only a cell of the environment changes. -/
theorem Edit.plan_mem {e : Edit} {f : Array Value → Array Value}
    (planned : e.plan m env = some (id, f)) : id ∈ env := by
  cases e with
  | set offset depth value =>
    simp only [plan] at planned
    split at planned <;> cases planned
    next found => exact ancestor_mem (writable_room found).1
  | setArguments depth values count =>
    simp only [plan] at planned
    split at planned
    · cases planned
    · split at planned <;> cases planned
      next found => exact List.mem_of_mem_drop (ancestor_mem (innermost_ok found))
  | grow depth =>
    simp only [plan] at planned
    split at planned
    · next found =>
      split at planned <;> cases planned
      exact List.mem_of_mem_drop (ancestor_mem found)
    · cases planned

namespace Alike

theorem cell (alike : Alike a env b env) (member : id ∈ env) : a.cell id = b.cell id :=
  List.map_inj_left.1 alike.cells id member

theorem slots (alike : Alike a env b env) (member : id ∈ env) : a.slots id = b.slots id := by
  rw [Memory.slots, alike.cell member, Memory.slots]

theorem declared (alike : Alike a env b env) (member : id ∈ env) :
    a.declared id = b.declared id := by
  rw [Memory.declared, alike.cell member, alike.static, Memory.declared]

theorem writable (alike : Alike a env b env) (offset depth : Nat) :
    a.writable env offset depth = b.writable env offset depth := by
  unfold Memory.writable
  cases found : Memory.ancestor env depth with
  | error fault => rfl
  | ok id =>
    have member := ancestor_mem found
    simp only [bind, Except.bind, alike.slots member, alike.declared member]

theorem innermost (alike : Alike a env b env) : a.innermost env = b.innermost env := by
  unfold Memory.innermost
  cases found : Memory.ancestor env 0 with
  | error fault => rfl
  | ok id => simp only [bind, Except.bind, alike.slots (ancestor_mem found)]

theorem plan (alike : Alike a env b env) (e : Edit) : e.plan a env = e.plan b env := by
  cases e with
  | set offset depth value =>
    simp only [Edit.plan, alike.writable]
    cases found : b.writable env offset depth with
    | error fault => rfl
    | ok id => simp only [alike.declared (ancestor_mem (writable_room found).1)]
  | setArguments depth values count => simp only [Edit.plan, (alike.drop depth).innermost]
  | grow depth =>
    simp only [Edit.plan]
    cases found : Memory.ancestor (env.drop depth) 0 with
    | error fault => rfl
    | ok id =>
      have member := List.mem_of_mem_drop (ancestor_mem found)
      simp only [alike.cell member, alike.declared member]

/-- The same change of slots on both sides. -/
theorem change (alike : Alike a env b env) (id : CellId) (f : Array Value → Array Value)
    (member : id ∈ env) : Alike (a.change id f) env (b.change id f) env := by
  refine ⟨alike.statics, List.map_congr_left fun cell inside => ?_⟩
  rw [cell_change, cell_change, alike.cell inside, alike.cell member]

/-- A change of slots that no cell of the environment has. -/
theorem change_elsewhere (alike : Alike a env b env) (f : Array Value → Array Value)
    (elsewhere : id ∉ env) : Alike (a.change id f) env b env := by
  refine ⟨alike.statics, List.map_congr_left fun cell inside => ?_⟩
  have differs : cell ≠ id := fun same => elsewhere (same ▸ inside)
  rw [cell_change, if_neg differs, alike.cell inside]

theorem edit (alike : Alike a env b env) (e : Edit) :
    Alike (a.edit env e) env (b.edit env e) env := by
  rw [edit_eq, edit_eq, alike.plan]
  cases planned : e.plan b env with
  | none => exact alike
  | some target => exact alike.change _ _ (Edit.plan_mem planned)

theorem edit_elsewhere (alike : Alike a env b env) (disjoint : ∀ id ∈ other, id ∉ env) (e : Edit) :
    Alike (a.edit other e) env b env := by
  rw [edit_eq]
  cases planned : e.plan a other with
  | none => exact alike
  | some target => exact alike.change_elsewhere _ (disjoint _ (Edit.plan_mem planned))

theorem declare (alike : Alike a env b env) (scope : StaticId) (name : String) :
    Alike (a.declare scope name) env (b.declare scope name) env := by
  refine ⟨?_, alike.cells⟩
  simp only [Memory.declare, alike.statics]

/-- Changes that do not concern an environment can be left out. -/
theorem after {env : Side → Env} {side : Side}
    (disjoint : ∀ own, own ≠ side → ∀ id ∈ env own, id ∉ env side) (changes : List Change)
    (alike : Alike a (env side) b (env side)) :
    Alike (a.after env changes) (env side)
      (b.after env (changes.filter (·.concerns side))) (env side) := by
  induction changes generalizing a b with
  | nil => exact alike
  | cons change rest ih =>
    rw [Memory.after, List.foldl_cons]
    cases change with
    | declare scope name => exact ih (alike.declare scope name)
    | edit own e =>
      by_cases concerned : own = side
      · subst concerned
        rw [List.filter_cons_of_pos (by simp [Change.concerns])]
        exact ih (alike.edit e)
      · rw [List.filter_cons_of_neg (by simp [Change.concerns, concerned])]
        exact ih (alike.edit_elsewhere (disjoint own concerned) e)

end Alike

/-- A copy has cells of its own, which are alike. -/
structure Copied (m : Memory) (env copy : Env) (cloned : Memory) : Prop where
  alike : Alike cloned copy m env
  size : m.cells.size ≤ cloned.cells.size
  old : ∀ id < m.cells.size, cloned.cell id = m.cell id
  fresh : ∀ id ∈ copy, m.cells.size ≤ id ∧ id < cloned.cells.size

theorem clone_copied (m : Memory) (env : Env) : Copied m env (m.clone env).1 (m.clone env).2 := by
  induction env with
  | nil => exact ⟨.refl m [], Nat.le_refl _, fun _ _ => rfl, nofun⟩
  | cons id outer ih =>
    obtain ⟨⟨statics, cells⟩, size, old, fresh⟩ := ih
    have kept (other : CellId) (inside : other < (m.clone outer).2.cells.size) :
        (m.clone (id :: outer)).2.cell other = (m.clone outer).2.cell other := by
      rw [clone, cell_push, if_neg (Nat.ne_of_lt inside)]
    refine ⟨⟨statics, ?_⟩, ?_, ?_, ?_⟩
    · have last : (m.clone (id :: outer)).2.cell (m.clone outer).2.cells.size = m.cell id := by
        rw [clone, cell_push, if_pos rfl]
      have rest : (m.clone outer).1.map (m.clone (id :: outer)).2.cell = outer.map m.cell := by
        rw [← cells]
        exact List.map_congr_left fun other member => kept other (fresh other member).2
      rw [List.map_cons, ← last, ← rest]
      rfl
    · simp only [clone, Array.size_push]
      omega
    · intro other inside
      rw [kept other (Nat.lt_of_lt_of_le inside size), old other inside]
    · intro other member
      simp only [clone, Array.size_push]
      rcases List.mem_cons.1 member with rfl | member
      · exact ⟨size, Nat.lt_succ_self _⟩
      · obtain ⟨above, below⟩ := fresh other member
        exact ⟨above, Nat.lt_succ_of_lt below⟩

/-- Through a copy of an environment everything is seen as it is through the original. What is changed
through one of them later on, in whatever order, is seen through that one only, while both see the
variables that scopes gain. -/
theorem clone_independent (m : Memory) (env : Env) (there : ∀ id ∈ env, id < m.cells.size) :
    let copy := (m.clone env).1
    let cloned := (m.clone env).2
    let env := Side.env env copy
    SameView cloned copy m (env .original) ∧ SameView cloned (env .original) m (env .original) ∧
      ∀ changes side, SameView (cloned.after env changes) (env side)
        (cloned.after env (changes.filter (·.concerns side))) (env side) := by
  intro copy cloned both
  have copied := m.clone_copied env
  refine ⟨copied.alike.sameView, ?_, ?_⟩
  · have kept : Alike cloned env m env :=
      ⟨copied.alike.statics, List.map_congr_left fun id member => copied.old id (there id member)⟩
    exact kept.sameView
  · intro changes side
    apply Alike.sameView
    refine .after ?_ changes (.refl cloned (both side))
    have apart (id : CellId) (old : id ∈ env) : id ∉ copy := fun new =>
      Nat.not_lt.2 (copied.fresh id new).1 (there id old)
    intro own differs id member inside
    cases own with
    | original =>
      cases side with
      | original => exact differs rfl
      | copy => exact apart id member inside
    | copy =>
      cases side with
      | original => exact apart id inside member
      | copy => exact differs rfl

/-- A closure's scope in a method's scope, with a variable each. -/
def nested : Memory :=
  ⟨#[{ vars := ["a"] }, { kind := .closure, enclosing := [0], vars := ["b"] }],
    #[⟨0, some #[.nil]⟩, ⟨1, some #[.nil]⟩]⟩

/-- Writes of the outer variable, and of one that is declared later on. -/
def nestedWrites : List Change :=
  [.edit .copy (.set 0 1 (.bool true)), .declare 0 "c", .edit .original (.set 1 1 (.str "late"))]

theorem clone_independent_nested :
    let env := Side.env [1, 0] (nested.clone [1, 0]).1
    let after := (nested.clone [1, 0]).2.after env nestedWrites
    (∀ id ∈ [1, 0], id < nested.cells.size) ∧
      after.read (env .original) 0 1 = .ok .nil ∧ after.read (env .copy) 0 1 = .ok (.bool true) ∧
      after.read (env .original) 1 1 = .ok (.str "late") ∧
      after.read (env .copy) 1 1 = .ok .nil := by
  intro env after
  have there : ∀ id ∈ [1, 0], id < nested.cells.size := by decide
  obtain ⟨-, -, independent⟩ := clone_independent nested [1, 0] there
  have original := (independent nestedWrites .original).1
  have copy := (independent nestedWrites .copy).1
  exact ⟨there, original 0 1, copy 0 1, original 1 1, copy 1 1⟩

end CallEngine.Memory
