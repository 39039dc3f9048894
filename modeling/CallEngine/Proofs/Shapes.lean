import CallEngine.Proofs.Scoping
/-! How many variables the cells of an environment have, and that those are there to be read and
written. -/
namespace CallEngine
open StaticScope (sizing Persist)

namespace Memory

/-- How many variables the scope of a cell has. -/
def size? (m : Memory) (id : CellId) : Option Nat :=
  m.cells[id]?.bind fun cell => m.statics[cell.scope]?.map StaticScope.size

/-- The scopes of the cells have that many variables. -/
def Shapes (m : Memory) (env : Env) (sizes : List Nat) : Prop := env.map m.size? = sizes.map some

/-- Cells have a scope, and storage if the scope has variables. -/
def Stored (m : Memory) : Prop :=
  ∀ id < m.cells.size, ∃ size, m.size? id = some size ∧ (0 < size → (m.cell id).slots.isSome)

/-- Cells that are there stay, and keep their sizes. -/
def Grows (m m' : Memory) : Prop := ∀ id size, m.size? id = some size → m'.size? id = some size

theorem Grows.refl (m : Memory) : Grows m m := fun _ _ known => known

theorem Grows.trans {a b c : Memory} (first : Grows a b) (second : Grows b c) : Grows a c :=
  fun id size known => second id size (first id size known)

theorem Shapes.nil (m : Memory) : m.Shapes [] [] := rfl

theorem Shapes.mono {m m' : Memory} {env : Env} {sizes : List Nat} (shapes : m.Shapes env sizes)
    (grows : m.Grows m') : m'.Shapes env sizes := by
  unfold Shapes at *
  rw [← shapes]
  refine List.map_congr_left fun id member => ?_
  have known : m.size? id ∈ sizes.map some := shapes ▸ List.mem_map_of_mem member
  obtain ⟨size, -, found⟩ := List.mem_map.1 known
  rw [← found, grows id size found.symm]

variable {m : Memory} {env : Env} {sizes : List Nat}

theorem Stored.slots (stored : m.Stored) {id : CellId} {size : Nat}
    (sized : m.size? id = some size) (positive : 0 < size) : (m.cell id).slots.isSome := by
  obtain ⟨cell, found, -⟩ := Option.bind_eq_some_iff.1 sized
  obtain ⟨inside, -⟩ := Array.getElem?_eq_some_iff.1 found
  obtain ⟨own, known, storage⟩ := stored id inside
  obtain rfl : own = size := Option.some.inj (known.symm.trans sized)
  exact storage positive

theorem declared_of_size? {id : CellId} {size : Nat} (sized : m.size? id = some size) :
    m.declared id = size := by
  obtain ⟨cell, found, known⟩ := Option.bind_eq_some_iff.1 sized
  obtain ⟨scope, declared, rfl⟩ := Option.map_eq_some_iff.1 known
  simp [Memory.declared, Memory.static, Memory.cell, found, declared]

/-- What there is behind the address of a variable. -/
theorem Shapes.cell (shapes : m.Shapes env sizes) (stored : m.Stored) {offset depth : Nat}
    (has : hasVariable sizes offset depth) :
    ∃ id slots, ancestor env depth = .ok id ∧ m.slots id = .ok slots ∧ offset < m.declared id := by
  obtain ⟨size, found, inside⟩ := (Option.any_eq_true _ _).1 has
  have inside := of_decide_eq_true inside
  have known : (env.map m.size?)[depth]? = some (some size) := by
    rw [shapes, List.getElem?_map, found, Option.map_some]
  rw [List.getElem?_map] at known
  obtain ⟨id, here, sized⟩ := Option.map_eq_some_iff.1 known
  obtain ⟨slots, storage⟩ := Option.isSome_iff_exists.1
    (stored.slots sized (Nat.lt_of_le_of_lt (Nat.zero_le _) inside))
  refine ⟨id, slots, by simp [ancestor, here], by simp [Memory.slots, storage], ?_⟩
  rw [declared_of_size? sized]
  exact inside

theorem Shapes.read (shapes : m.Shapes env sizes) (stored : m.Stored) {offset depth : Nat}
    (has : hasVariable sizes offset depth) : ∃ value, m.read env offset depth = .ok value := by
  obtain ⟨id, slots, found, storage, inside⟩ := shapes.cell stored has
  unfold Memory.read
  simp only [found, storage, Bind.bind, Except.bind]
  split
  · exact ⟨_, rfl⟩
  · exact ⟨.nil, if_pos inside⟩

theorem Shapes.writable (shapes : m.Shapes env sizes) (stored : m.Stored) {offset depth : Nat}
    (has : hasVariable sizes offset depth) : ∃ id, m.writable env offset depth = .ok id := by
  obtain ⟨id, slots, found, storage, inside⟩ := shapes.cell stored has
  refine ⟨id, ?_⟩
  unfold Memory.writable
  simp only [found, storage, Bind.bind, Except.bind, inside, if_true, ite_self]

theorem Shapes.innermost (shapes : m.Shapes env sizes) (stored : m.Stored)
    (has : hasVariable sizes 0 0) : ∃ id, m.innermost env = .ok id := by
  obtain ⟨id, slots, found, storage, -⟩ := shapes.cell stored has
  refine ⟨id, ?_⟩
  unfold Memory.innermost
  simp only [found, storage, Bind.bind, Except.bind]

/-- Changing cells in place changes neither their scopes nor whether they have storage. -/
structure Rewrites (m m' : Memory) : Prop where
  statics : m'.statics = m.statics
  count : m'.cells.size = m.cells.size
  size? : ∀ id, m'.size? id = m.size? id
  slots : ∀ id, (m'.cell id).slots.isSome = (m.cell id).slots.isSome

theorem Rewrites.modify (m : Memory) (id : CellId) (f : Cell → Cell)
    (scope : ∀ cell, (f cell).scope = cell.scope)
    (slots : ∀ cell, (f cell).slots.isSome = cell.slots.isSome) :
    Rewrites m { m with cells := m.cells.modify id f } where
  statics := rfl
  count := Array.size_modify
  size? other := by
    simp only [Memory.size?, Array.getElem?_modify]
    split
    · next same =>
      subst same
      cases m.cells[id]? <;> simp [scope]
    · rfl
  slots other := by
    simp only [Memory.cell, Array.getD_eq_getD_getElem?, Array.getElem?_modify]
    split
    · next same =>
      subst same
      cases m.cells[id]? <;> simp [slots]
    · rfl

theorem Rewrites.change (m : Memory) (id : CellId) (f : Array Value → Array Value) :
    Rewrites m (m.change id f) := by
  refine .modify m id _ (fun cell => ?_) fun cell => ?_ <;>
    obtain ⟨scope, slots⟩ := cell <;> cases slots <;> rfl

theorem Rewrites.put (m : Memory) (id : CellId) (offset : Nat) (value : Value) :
    Rewrites m (m.put id offset value) := by
  refine .modify m id _ (fun cell => ?_) fun cell => ?_ <;>
    obtain ⟨scope, slots⟩ := cell <;> cases slots <;> rfl

theorem Rewrites.grows {m m' : Memory} (rewrites : Rewrites m m') : Grows m m' :=
  fun id _ known => (rewrites.size? id).trans known

theorem Rewrites.stored {m m' : Memory} (rewrites : Rewrites m m') (stored : m.Stored) :
    m'.Stored := by
  intro id inside
  rw [rewrites.size?, rewrites.slots]
  exact stored id (rewrites.count ▸ inside)

theorem size?_allocate (m : Memory) (scope : StaticId) (parent : Env) (id : CellId) :
    (m.allocate scope parent).2.size? id =
      if id = m.cells.size then m.statics[scope]?.map StaticScope.size else m.size? id := by
  simp only [Memory.size?, Memory.allocate, Array.getElem?_push]
  split <;> rfl

theorem grows_allocate (m : Memory) (scope : StaticId) (parent : Env) :
    m.Grows (m.allocate scope parent).2 := by
  intro id size known
  obtain ⟨cell, found, -⟩ := Option.bind_eq_some_iff.1 known
  obtain ⟨inside, -⟩ := Array.getElem?_eq_some_iff.1 found
  rw [size?_allocate, if_neg (Nat.ne_of_lt inside), known]

theorem Shapes.allocate {scope : StaticId} {size : Nat} (shapes : m.Shapes env sizes)
    (known : m.statics[scope]?.map StaticScope.size = some size) :
    (m.allocate scope env).2.Shapes (m.allocate scope env).1 (size :: sizes) := by
  have outer := shapes.mono (grows_allocate m scope env)
  unfold Shapes at outer ⊢
  rw [List.map_cons, ← outer]
  refine congrArg (· :: _) ?_
  rw [size?_allocate, if_pos rfl, known]

theorem Stored.allocate {scope : StaticId} {size : Nat} (stored : m.Stored) (parent : Env)
    (known : m.statics[scope]?.map StaticScope.size = some size) :
    (m.allocate scope parent).2.Stored := by
  intro id inside
  rw [size?_allocate]
  by_cases new : id = m.cells.size
  · subst new
    refine ⟨size, by rw [if_pos rfl, known], fun positive => ?_⟩
    obtain ⟨found, declared, rfl⟩ := Option.map_eq_some_iff.1 known
    simp [Memory.allocate, Memory.cell, Cell.fresh, Memory.static, declared, Nat.ne_of_gt positive]
  · have old : id < m.cells.size := by
      simp only [Memory.allocate, Array.size_push] at inside
      omega
    rw [if_neg new]
    obtain ⟨own, sized, storage⟩ := stored id old
    refine ⟨own, sized, fun positive => ?_⟩
    simpa [Memory.allocate, Memory.cell, Array.getElem?_push, new] using storage positive

/-- More scopes change nothing for the cells that are there. -/
theorem grows_of_persist {m m' : Memory} (cells : m'.cells = m.cells)
    (persist : Persist m.statics m'.statics) : m.Grows m' := by
  intro id size known
  obtain ⟨cell, found, declared⟩ := Option.bind_eq_some_iff.1 known
  rw [Memory.size?, cells, found, Option.bind_some]
  exact persist.sizing.method declared

theorem Stored.persist {m m' : Memory} (stored : m.Stored) (cells : m'.cells = m.cells)
    (persist : Persist m.statics m'.statics) : m'.Stored := by
  intro id inside
  obtain ⟨size, sized, storage⟩ := stored id (cells ▸ inside)
  refine ⟨size, grows_of_persist cells persist id size sized, ?_⟩
  rwa [Memory.cell, cells]

end Memory

end CallEngine
