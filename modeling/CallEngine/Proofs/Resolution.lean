import CallEngine.Proofs.Variables
/-! Where a name is found, and the storage behind the address.

An environment is entered scope by scope while scopes go on gaining variables. What a name resolves
to is the nearest declaration that a search from the innermost scope gets to, and there is storage
behind it, as long as a scope that was entered without variables declares none. -/
namespace CallEngine

/-- The first place where the name is among the names. -/
def FirstAt (names : List String) (name : String) (offset : Nat) : Prop :=
  names[offset]? = some name ∧ ∀ before < offset, names[before]? ≠ some name

theorem idxOf?_eq_some_iff_firstAt {names : List String} {name : String} {offset : Nat} :
    names.idxOf? name = some offset ↔ FirstAt names name offset := by
  rw [List.idxOf?_eq_some_iff]
  constructor
  · rintro ⟨inside, here, first⟩
    refine ⟨List.getElem?_eq_some_iff.mpr ⟨inside, here⟩, fun before closer found => ?_⟩
    obtain ⟨_, same⟩ := List.getElem?_eq_some_iff.mp found
    exact first before closer same
  · rintro ⟨here, first⟩
    obtain ⟨inside, here⟩ := List.getElem?_eq_some_iff.mp here
    refine ⟨inside, here, fun before closer same => ?_⟩
    exact first before closer (List.getElem?_eq_some_iff.mpr ⟨Nat.lt_trans closer inside, same⟩)

/-- Names at the end do not come before one that is there. -/
theorem FirstAt.of_prefix {names more : List String} {name : String} {offset : Nat}
    (first : FirstAt names name offset) (begins : names <+: more) : FirstAt more name offset := by
  obtain ⟨here, earlier⟩ := first
  obtain ⟨inside, -⟩ := List.getElem?_eq_some_iff.mp here
  obtain ⟨added, rfl⟩ := begins
  refine ⟨(List.getElem?_append_left inside).trans here, fun before closer => ?_⟩
  rw [List.getElem?_append_left (Nat.lt_trans closer inside)]
  exact earlier before closer

theorem StaticScope.idxOf?_declare {scope : StaticScope} {name added : String}
    (other : added ≠ name) : (scope.declare added).vars.idxOf? name = scope.vars.idxOf? name := by
  unfold StaticScope.declare
  split
  · rfl
  · have differs : [added].findIdx? (· == name) = none := by simp [other]
    simp only [List.idxOf?, List.findIdx?_append, differs]
    simp

namespace Memory

/-- A chain of scopes that was entered from the outermost one inwards, with `env` as the environment
of the innermost one; `bare` are the scopes among them that declared nothing when they were
entered. Memory may evolve before, between and after the entries. -/
inductive Entered : Memory → List StaticId → Env → List StaticId → Prop
  | outside (m : Memory) (env : Env) : Entered m [] env []
  | filled {m : Memory} {scope : StaticId} {scopes bare : List StaticId} {env : Env} :
    Entered m scopes env bare → 0 < (m.static scope).size →
    Entered (m.allocate scope env).2 (scope :: scopes) (m.allocate scope env).1 bare
  | bare {m : Memory} {scope : StaticId} {scopes bare : List StaticId} {env : Env} :
    Entered m scopes env bare → (m.static scope).size = 0 →
    Entered (m.allocate scope env).2 (scope :: scopes) (m.allocate scope env).1 (scope :: bare)
  | later {m m' : Memory} {scopes bare : List StaticId} {env : Env} :
    Entered m scopes env bare → m.Evolves m' → Entered m' scopes env bare

variable {m m' : Memory} {name : String} {scope inner : StaticId} {scopes bare : List StaticId}
  {env : Env} {id : CellId} {slots : Array Value} {offset depth start : Nat}

/-- The scopes that a search from `inner` may look at, innermost first. -/
def chain (m : Memory) (inner : StaticId) : List StaticId := inner :: (m.static inner).enclosing

/-- Of these scopes, the one `depth` steps out is the nearest that declares the name, and those on
the way there are closures. -/
structure Nearest (m : Memory) (name : String) (scopes : List StaticId) (depth : Nat)
    (scope : StaticId) : Prop where
  there : scopes[depth]? = some scope
  declares : name ∈ (m.static scope).vars
  closer : ∀ passed ∈ scopes.take depth,
    name ∉ (m.static passed).vars ∧ (m.static passed).kind = .closure

theorem Nearest.outwards {passed : StaticId} (silent : name ∉ (m.static passed).vars)
    (closure : (m.static passed).kind = .closure) (nearest : m.Nearest name scopes depth scope) :
    m.Nearest name (passed :: scopes) (depth + 1) scope where
  there := nearest.there
  declares := nearest.declares
  closer := by
    rw [List.take_succ_cons]
    exact List.forall_mem_cons.mpr ⟨⟨silent, closure⟩, nearest.closer⟩

theorem findFrom_eq_some {reached : Nat}
    (found : m.findFrom name scopes start = some (offset, reached)) :
    ∃ depth scope, reached = start + depth ∧ m.Nearest name scopes depth scope ∧
      FirstAt (m.static scope).vars name offset := by
  induction scopes generalizing start with
  | nil => cases found
  | cons first outer ih =>
    rw [findFrom] at found
    split at found
    · next here =>
      cases found
      refine ⟨0, first, rfl, ⟨rfl, ?_, nofun⟩, idxOf?_eq_some_iff_firstAt.mp here⟩
      exact List.mem_of_getElem? (idxOf?_eq_some_iff_firstAt.mp here).1
    · next silent =>
      split at found
      · next closure =>
        obtain ⟨depth, scope, steps, nearest, position⟩ := ih found
        have absent := List.idxOf?_eq_none_iff.mp silent
        exact ⟨depth + 1, scope, by omega, nearest.outwards absent closure, position⟩
      · cases found

theorem findFrom_of_nearest (nearest : m.Nearest name scopes depth scope)
    (position : FirstAt (m.static scope).vars name offset) (start : Nat) :
    m.findFrom name scopes start = some (offset, start + depth) := by
  induction scopes generalizing start depth with
  | nil => cases nearest.there
  | cons first outer ih =>
    rw [findFrom]
    cases depth with
    | zero =>
      obtain rfl := Option.some.inj nearest.there
      rw [idxOf?_eq_some_iff_firstAt.mpr position]
      rfl
    | succ depth =>
      have onTheWay := List.forall_mem_cons.mp (List.take_succ_cons ▸ nearest.closer)
      obtain ⟨⟨silent, closure⟩, closer⟩ := onTheWay
      rw [List.idxOf?_eq_none_iff.mpr silent]
      dsimp only
      rw [if_pos closure, ih ⟨nearest.there, nearest.declares, closer⟩ (start + 1)]
      congr 2
      omega

/-- A name is found where it is declared first in the nearest scope that declares it. -/
theorem find_eq_some_iff : m.find inner name = some (offset, depth) ↔
    ∃ scope, m.Nearest name (m.chain inner) depth scope ∧
      FirstAt (m.static scope).vars name offset := by
  constructor
  · intro found
    obtain ⟨steps, scope, reached, nearest, position⟩ := findFrom_eq_some found
    obtain rfl : depth = steps := reached.trans (Nat.zero_add steps)
    exact ⟨scope, nearest, position⟩
  · rintro ⟨scope, nearest, position⟩
    have found := findFrom_of_nearest nearest position 0
    rwa [Nat.zero_add] at found

/-- A search looks at positions and kinds only. -/
theorem findFrom_congr (positions : ∀ id, (m'.static id).vars.idxOf? name =
      (m.static id).vars.idxOf? name)
    (kinds : ∀ id, (m'.static id).kind = (m.static id).kind) :
    m'.findFrom name scopes start = m.findFrom name scopes start := by
  induction scopes generalizing start with
  | nil => rfl
  | cons first outer ih => rw [findFrom, findFrom, positions, kinds, ih]

theorem ancestor_eq_ok : ancestor env depth = .ok id ↔ env[depth]? = some id := by
  unfold ancestor
  cases env[depth]? <;> simp

/-- The cell `depth` steps out belongs to the scope and has storage. -/
def StoredAt (m : Memory) (env : Env) (depth : Nat) (scope : StaticId) : Prop :=
  ∃ id slots, ancestor env depth = .ok id ∧ (m.cell id).scope = scope ∧
    (m.cell id).slots = some slots

theorem StoredAt.later (stored : m.StoredAt env depth scope) (evolves : m.Evolves m') :
    m'.StoredAt env depth scope := by
  obtain ⟨id, slots, found, own, storage⟩ := stored
  obtain ⟨kept, more, storage, -⟩ := evolves.cells id slots storage
  exact ⟨id, more, found, kept.trans own, storage⟩

theorem storedAt_allocate (positive : 0 < (m.static scope).size) (env : Env) :
    (m.allocate scope env).2.StoredAt (m.allocate scope env).1 0 scope := by
  have made : (m.allocate scope env).2.cell m.cells.size =
      ⟨scope, some (Array.replicate (m.static scope).size .nil)⟩ := by
    refine (m.cell_push _ _).trans ((if_pos rfl).trans ?_)
    rw [Cell.fresh, if_neg (Nat.ne_of_gt positive)]
  exact ⟨m.cells.size, _, rfl, congrArg Cell.scope made, congrArg Cell.slots made⟩

theorem StoredAt.outwards (stored : m.StoredAt env depth scope) (id : CellId) :
    m.StoredAt (id :: env) (depth + 1) scope := by
  obtain ⟨cell, slots, found, own, storage⟩ := stored
  refine ⟨cell, slots, ?_, own, storage⟩
  rw [ancestor_eq_ok] at found ⊢
  exact found

/-- A scope that declared something when it was entered has its cell in the environment. -/
theorem Entered.stored (entered : Entered m scopes env bare) (there : scopes[depth]? = some scope)
    (isFilled : scope ∉ bare) : m.StoredAt env depth scope := by
  induction entered generalizing depth with
  | outside => cases there
  | filled _ positive ih =>
    cases depth with
    | zero =>
      obtain rfl := Option.some.inj there
      exact storedAt_allocate positive _
    | succ depth => exact ((ih there isFilled).later (.allocate ..)).outwards _
  | bare _ _ ih =>
    cases depth with
    | zero =>
      obtain rfl := Option.some.inj there
      exact absurd List.mem_cons_self isFilled
    | succ depth =>
      have notInside := fun member => isFilled (List.mem_cons_of_mem _ member)
      exact ((ih there notInside).later (.allocate ..)).outwards _
  | later _ evolves ih => exact (ih there isFilled).later evolves

theorem slots_of_storage (storage : (m.cell id).slots = some slots) : m.slots id = .ok slots := by
  rw [Memory.slots, storage]

/-- A variable that the scope of a cell with storage declares can be read. -/
theorem read_of_declared (found : ancestor env depth = .ok id)
    (storage : (m.cell id).slots = some slots) (inside : offset < m.declared id) :
    ∃ value, m.read env offset depth = .ok value := by
  rw [read_of_ancestor found, slots_of_storage storage]
  change ∃ value, slotValue (m.declared id) offset slots = .ok value
  unfold slotValue
  split
  · exact ⟨_, rfl⟩
  · exact ⟨.nil, if_pos inside⟩

theorem write_of_declared (found : ancestor env depth = .ok id)
    (storage : (m.cell id).slots = some slots) (inside : offset < m.declared id) (value : Value) :
    m.write env offset depth value = .ok (m.put id offset value) := by
  have reached : m.writable env offset depth = .ok id := by
    rw [writable, found]
    change (m.slots id >>= _) = _
    rw [slots_of_storage storage]
    change (if offset < slots.size then _ else _) = _
    rw [if_pos inside, ite_self]
  rw [write, reached]
  rfl

/-- What is found from `inner` is the nearest declaration, and in the environment a variable of that
scope, which can be read and written. -/
def Agrees (m : Memory) (inner : StaticId) (env : Env) : Prop :=
  ∀ name offset depth, m.find inner name = some (offset, depth) →
    ∃ scope id, m.Nearest name (m.chain inner) depth scope ∧
      FirstAt (m.static scope).vars name offset ∧
      ancestor env depth = .ok id ∧ (m.cell id).scope = scope ∧
      (∃ value, m.read env offset depth = .ok value) ∧
      ∀ value, ∃ m', m.write env offset depth value = .ok m'

/-- The scope in which a name is found, with its cell. -/
theorem Entered.found (entered : Entered m (m.chain inner) env bare)
    (still : ∀ scope ∈ bare, (m.static scope).size = 0)
    (found : m.find inner name = some (offset, depth)) :
    ∃ scope id slots, m.Nearest name (m.chain inner) depth scope ∧
      FirstAt (m.static scope).vars name offset ∧ ancestor env depth = .ok id ∧
      (m.cell id).scope = scope ∧ (m.cell id).slots = some slots ∧ offset < m.declared id := by
  obtain ⟨scope, nearest, position⟩ := find_eq_some_iff.mp found
  have inside : offset < (m.static scope).size :=
    (List.getElem?_eq_some_iff.mp position.1).1
  have isFilled : scope ∉ bare := by
    intro member
    have empty := still scope member
    omega
  obtain ⟨id, slots, reached, own, storage⟩ := entered.stored nearest.there isFilled
  refine ⟨scope, id, slots, nearest, position, reached, own, storage, ?_⟩
  rw [declared, own]
  exact inside

theorem Entered.agrees (entered : Entered m (m.chain inner) env bare)
    (still : ∀ scope ∈ bare, (m.static scope).size = 0) : m.Agrees inner env := by
  intro name offset depth found
  obtain ⟨scope, id, slots, nearest, position, reached, own, storage, inside⟩ :=
    entered.found still found
  exact ⟨scope, id, nearest, position, reached, own, read_of_declared reached storage inside,
    fun value => ⟨_, write_of_declared reached storage inside value⟩⟩

/-- Adds variables to scopes, one after the other. -/
def declareAll (m : Memory) : List (StaticId × String) → Memory
  | [] => m
  | (scope, name) :: rest => (m.declare scope name).declareAll rest

variable {additions : List (StaticId × String)}

theorem declareAll_evolves (m : Memory) (additions : List (StaticId × String)) :
    m.Evolves (m.declareAll additions) := by
  induction additions generalizing m with
  | nil => exact .refl m
  | cons addition rest ih => exact (Evolves.declare m _ _).trans (ih _)

theorem becomes_declareAll (m : Memory) (additions : List (StaticId × String)) (scope : StaticId) :
    (m.static scope).Becomes ((m.declareAll additions).static scope) := by
  induction additions generalizing m with
  | nil => exact .refl _
  | cons addition rest ih => exact (m.becomes_declare _ _ scope).trans (ih _)

theorem cell_declareAll (m : Memory) (additions : List (StaticId × String)) (id : CellId) :
    (m.declareAll additions).cell id = m.cell id := by
  induction additions generalizing m with
  | nil => rfl
  | cons addition rest ih => exact ih _

theorem idxOf?_declareAll (others : ∀ addition ∈ additions, addition.2 ≠ name) (m : Memory)
    (scope : StaticId) : ((m.declareAll additions).static scope).vars.idxOf? name =
      (m.static scope).vars.idxOf? name := by
  induction additions generalizing m with
  | nil => rfl
  | cons addition rest ih =>
    obtain ⟨other, others⟩ := List.forall_mem_cons.mp others
    refine (ih others _).trans ?_
    rw [static_declare]
    split
    · exact StaticScope.idxOf?_declare other
    · rfl

theorem find_declareAll (others : ∀ addition ∈ additions, addition.2 ≠ name) (m : Memory)
    (scope : StaticId) : (m.declareAll additions).find scope name = m.find scope name := by
  rw [find, find, (m.becomes_declareAll additions scope).enclosing]
  exact findFrom_congr (idxOf?_declareAll others m) fun id => (m.becomes_declareAll additions id).kind

theorem read_declareAll {value : Value} (has : m.read env offset depth = .ok value)
    (additions : List (StaticId × String)) :
    (m.declareAll additions).read env offset depth = .ok value := by
  induction additions generalizing m with
  | nil => exact has
  | cons addition rest ih => exact ih (read_declare _ _ has)

/-- In an environment that was entered scope by scope, names resolve to the nearest declaration and
to storage, as long as scopes without storage declare nothing. Whatever variables scopes gain,
declared names stay where they are, other names are found as before, and the address of a
variable leads to the same cell and the same value. -/
theorem resolution_agrees (entered : Entered m (m.chain inner) env bare)
    (still : ∀ scope ∈ bare, (m.static scope).size = 0) :
    m.Agrees inner env ∧
    ∀ additions, let later := m.declareAll additions
      (∀ scope name offset, FirstAt (m.static scope).vars name offset →
        FirstAt (later.static scope).vars name offset) ∧
      (∀ name, (∀ addition ∈ additions, addition.2 ≠ name) →
        ∀ scope, later.find scope name = m.find scope name) ∧
      (∀ name offset depth, m.find inner name = some (offset, depth) →
        ∃ id value, ancestor env depth = .ok id ∧ later.cell id = m.cell id ∧
          m.read env offset depth = .ok value ∧ later.read env offset depth = .ok value ∧
          ∀ value, ∃ m', later.write env offset depth value = .ok m') ∧
      ((∀ scope ∈ bare, (later.static scope).size = 0) → later.Agrees inner env) := by
  refine ⟨entered.agrees still, fun additions => ⟨?_, ?_, ?_, ?_⟩⟩
  · intro scope name offset position
    exact position.of_prefix (m.becomes_declareAll additions scope).vars
  · intro name others scope
    exact find_declareAll others m scope
  · intro name offset depth found
    obtain ⟨scope, id, slots, -, -, reached, own, storage, inside⟩ := entered.found still found
    obtain ⟨value, has⟩ := read_of_declared reached storage inside
    have same := m.cell_declareAll additions id
    have more : m.declared id ≤ (m.declareAll additions).declared id := by
      rw [declared, declared, same]
      exact (m.becomes_declareAll additions _).size
    have storage' := (congrArg Cell.slots same).trans storage
    have inside' := Nat.lt_of_lt_of_le inside more
    exact ⟨id, value, reached, same, has, read_declareAll has additions,
      fun value => ⟨_, write_of_declared reached storage' inside' value⟩⟩
  · intro still
    have enclosing := (m.becomes_declareAll additions inner).enclosing
    have chain : (m.declareAll additions).chain inner = m.chain inner := by
      rw [Memory.chain, Memory.chain, enclosing]
    exact Entered.agrees (chain ▸ entered.later (m.declareAll_evolves additions)) still

/-- In a method, a closure without variables, and in that one a closure that hides a variable of the
method. -/
def hidingScopes : Memory where
  statics := #[{ vars := ["a", "b"] }, { kind := .closure, enclosing := [0] },
    { kind := .closure, enclosing := [1, 0], vars := ["b"] }]

/-- All three have been entered, and the method has got a variable since. -/
def hidingEntries : Memory :=
  (((hidingScopes.allocate 0 []).2.allocate 1 [0]).2.allocate 2 [1, 0]).2.declare 0 "c"

theorem entered_hidingEntries : Entered hidingEntries (hidingEntries.chain 2) [2, 1, 0] [1] :=
  .later (.filled (.bare (.filled (.outside hidingScopes []) (by decide)) (by decide)) (by decide))
    (.declare _ 0 "c")

/-- The innermost scope gets variables of the names that the method has. -/
theorem resolution_agrees_hiding :
    hidingEntries.Agrees 2 [2, 1, 0] ∧ hidingEntries.find 2 "c" = some (2, 2) ∧
    let later := hidingEntries.declareAll [(2, "a"), (2, "c")]
    later.Agrees 2 [2, 1, 0] ∧ later.find 2 "c" = some (2, 0) ∧ later.find 2 "b" = some (0, 0) ∧
      ∃ value, later.read [2, 1, 0] 2 2 = .ok value := by
  have bareStill : ∀ scope ∈ [1], (hidingEntries.static scope).size = 0 := by decide
  obtain ⟨agrees, stays⟩ := resolution_agrees entered_hidingEntries bareStill
  obtain ⟨-, others, same, again⟩ := stays [(2, "a"), (2, "c")]
  have outside : hidingEntries.find 2 "c" = some (2, 2) := by decide
  obtain ⟨_, value, -, -, -, has, -⟩ := same "c" 2 2 outside
  refine ⟨agrees, outside, again (by decide), by decide, ?_, value, has⟩
  exact (others "b" (by decide) 2).trans (by decide)

end Memory

end CallEngine
