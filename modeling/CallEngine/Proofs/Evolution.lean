import CallEngine.Proofs.Lowering
import CallEngine.Tree.Resolve
/-! How a memory changes. Scopes gain variables, cells belong to the scopes that they were made for, and
their slots become no fewer. -/
namespace CallEngine

@[simp] theorem size_padded (slots : Array Value) (size : Nat) :
    (padded slots size).size = max slots.size size := by
  simp only [padded, Array.size_append, Array.size_replicate]
  omega

@[simp] theorem size_overlay (slots : Array Value) (start : Nat) (values : List Value) :
    (overlay slots start values).size = slots.size := by
  induction values generalizing slots start with
  | nil => rfl
  | cons value rest ih => rw [overlay, ih, Array.size_setIfInBounds]

/-- The slots with a value stored. They are padded first if there is no slot for it. -/
def stored (declared offset : Nat) (value : Value) (slots : Array Value) : Array Value :=
  if offset < slots.size then slots.setIfInBounds offset value
  else (padded slots declared).setIfInBounds offset value

theorem size_stored (declared offset : Nat) (value : Value) (slots : Array Value) :
    (stored declared offset value slots).size =
      if offset < slots.size then slots.size else max slots.size declared := by
  unfold stored
  split <;> simp

@[simp] theorem Cell.scope_change (cell : Cell) (f : Array Value → Array Value) :
    (cell.change f).scope = cell.scope := by
  obtain ⟨scope, _ | slots⟩ := cell <;> rfl

@[simp] theorem Cell.slots_change (cell : Cell) (f : Array Value → Array Value) :
    (cell.change f).slots = cell.slots.map f := by
  obtain ⟨scope, _ | slots⟩ := cell <;> rfl

/-- A scope gains variables after those that it has. -/
structure StaticScope.Becomes (scope later : StaticScope) : Prop where
  kind : later.kind = scope.kind
  enclosing : later.enclosing = scope.enclosing
  layout : later.layout = scope.layout
  vars : scope.vars <+: later.vars

namespace StaticScope.Becomes

theorem refl (scope : StaticScope) : scope.Becomes scope := ⟨rfl, rfl, rfl, List.prefix_refl _⟩

theorem trans {a b c : StaticScope} (first : a.Becomes b) (second : b.Becomes c) : a.Becomes c where
  kind := second.kind.trans first.kind
  enclosing := second.enclosing.trans first.enclosing
  layout := second.layout.trans first.layout
  vars := first.vars.trans second.vars

theorem declare (scope : StaticScope) (name : String) : scope.Becomes (scope.declare name) := by
  unfold StaticScope.declare
  split
  · exact refl scope
  · exact ⟨rfl, rfl, rfl, List.prefix_append _ _⟩

theorem size {scope later : StaticScope} (becomes : scope.Becomes later) : scope.size ≤ later.size :=
  becomes.vars.length_le

end StaticScope.Becomes

namespace Memory

/-- Cells with storage have slots, and no more of them than their scopes have variables. -/
def Snug (m : Memory) : Prop :=
  ∀ id slots, (m.cell id).slots = some slots → 0 < slots.size ∧ slots.size ≤ m.declared id

/-- Storage stays with its scope and loses no slots. -/
def Retains (m m' : Memory) : Prop :=
  ∀ id slots, (m.cell id).slots = some slots → (m'.cell id).scope = (m.cell id).scope ∧
    ∃ later, (m'.cell id).slots = some later ∧ slots.size ≤ later.size

theorem static_declare (m : Memory) (id : StaticId) (name : String) (other : StaticId) :
    (m.declare id name).static other =
      if other = id ∧ id < m.statics.size then (m.static other).declare name
      else m.static other := by
  simp only [static, declare, Array.getD_eq_getD_getElem?, Array.getElem?_modify]
  by_cases here : id = other
  · subst here
    by_cases known : id < m.statics.size
    · simp [known]
    · simp [known]
  · rw [if_neg here, if_neg fun both => here both.1.symm]

theorem becomes_declare (m : Memory) (id : StaticId) (name : String) (other : StaticId) :
    (m.static other).Becomes ((m.declare id name).static other) := by
  rw [static_declare]
  split
  · exact .declare _ name
  · exact .refl _

/-- What every change of a memory keeps. -/
structure Evolves (m m' : Memory) : Prop where
  count : m.statics.size ≤ m'.statics.size
  scopes : ∀ id < m.statics.size, (m.static id).Becomes (m'.static id)
  sizes : ∀ id, (m.static id).size ≤ (m'.static id).size
  cells : m.Retains m'
  snug : m.Snug → m'.Snug

section change

variable (m : Memory) (id : CellId) (f : Array Value → Array Value)

theorem cell_change (other : CellId) :
    (m.change id f).cell other = if other = id then (m.cell id).change f else m.cell other := by
  simp only [cell, change, Array.getD_eq_getD_getElem?, Array.getElem?_modify]
  by_cases here : other = id
  · subst here
    rw [if_pos rfl, if_pos rfl]
    cases m.cells[other]? <;> rfl
  · rw [if_neg (Ne.symm here), if_neg here]

theorem cell_push (cell : Cell) (other : CellId) :
    ({ m with cells := m.cells.push cell } : Memory).cell other =
      if other = m.cells.size then cell else m.cell other := by
  simp only [Memory.cell, Array.getD_eq_getD_getElem?, Array.getElem?_push]
  split <;> rfl

theorem declared_change (other : CellId) : (m.change id f).declared other = m.declared other := by
  have statics (scope : StaticId) : (m.change id f).static scope = m.static scope := rfl
  rw [declared, declared, statics, cell_change]
  split
  · next here => rw [Cell.scope_change, here]
  · rfl

theorem put_eq_change (offset : Nat) (value : Value) :
    m.put id offset value = m.change id (stored (m.declared id) offset value) := by
  have same : m.cells.modify id (fun cell => cell.change fun slots =>
      if offset < slots.size then slots.setIfInBounds offset value
      else (padded slots (m.statics.getD cell.scope default).size).setIfInBounds offset value) =
      m.cells.modify id (·.change (stored (m.declared id) offset value)) := by
    apply Array.ext_getElem?
    intro other
    simp only [Array.getElem?_modify]
    split
    · next here =>
      subst here
      cases found : m.cells[id]? with
      | none => rfl
      | some cell =>
        have own : m.cell id = cell := by
          simp [Memory.cell, Array.getD_eq_getD_getElem?, found]
        have declared : m.declared id = (m.statics.getD cell.scope default).size := by
          rw [Memory.declared, own]
          rfl
        rw [declared]
        rfl
    · rfl
  unfold put
  dsimp only
  rw [same]
  rfl

/-- Where a cell has storage, it gets a slot for every variable. -/
theorem grow_ok {m m' : Memory} {env : Env} (grown : m.grow env = .ok m') :
    m' = m ∨ ∃ id, m' = m.change id (padded · (m.declared id)) := by
  obtain ⟨id, -, done⟩ := Except.ok_of_bind grown
  dsimp only at done
  split at done
  · exact .inr ⟨id, (Except.ok.inj done).symm⟩
  · split at done <;> cases done
    exact .inl rfl

end change

namespace Evolves

variable {a b c m m' : Memory}

theorem refl (m : Memory) : m.Evolves m where
  count := Nat.le_refl _
  scopes _ _ := .refl _
  sizes _ := Nat.le_refl _
  cells _ slots has := ⟨rfl, slots, has, Nat.le_refl _⟩
  snug := id

theorem trans (first : a.Evolves b) (second : b.Evolves c) : a.Evolves c where
  count := Nat.le_trans first.count second.count
  scopes id known :=
    (first.scopes id known).trans (second.scopes id (Nat.lt_of_lt_of_le known first.count))
  sizes id := Nat.le_trans (first.sizes id) (second.sizes id)
  cells id slots has := by
    obtain ⟨scope, later, has', fewer⟩ := first.cells id slots has
    obtain ⟨scope', last, has'', fewer'⟩ := second.cells id later has'
    exact ⟨scope'.trans scope, last, has'', Nat.le_trans fewer fewer'⟩
  snug snug := second.snug (first.snug snug)

/-- Scopes that gain variables, and further scopes. -/
theorem statics {statics : Array StaticScope} (count : m.statics.size ≤ statics.size)
    (scopes : ∀ id < m.statics.size, (m.static id).Becomes (statics.getD id default))
    (more : ∀ id, (m.static id).size ≤ (statics.getD id default).size) :
    m.Evolves { m with statics } where
  count := count
  scopes := scopes
  sizes := more
  cells _ slots has := ⟨rfl, slots, has, Nat.le_refl _⟩
  snug snug id slots has := by
    obtain ⟨positive, inside⟩ := snug id slots has
    exact ⟨positive, Nat.le_trans inside (more _)⟩

theorem addStatic (m : Memory) (scope : StaticScope) : m.Evolves (m.addStatic scope).2 := by
  apply statics
  · simp
  · intro id known
    have old : id ≠ m.statics.size := Nat.ne_of_lt known
    simp only [static, Array.getD_eq_getD_getElem?, Array.getElem?_push, if_neg old]
    exact .refl _
  · intro id
    simp only [static, Array.getD_eq_getD_getElem?, Array.getElem?_push]
    split
    · next last =>
      have fresh : m.statics[id]? = none := Array.getElem?_eq_none (Nat.le_of_eq last.symm)
      rw [fresh]
      exact Nat.zero_le _
    · exact Nat.le_refl _

theorem declare (m : Memory) (id : StaticId) (name : String) : m.Evolves (m.declare id name) := by
  apply statics
  · simp
  · exact fun other _ => m.becomes_declare id name other
  · exact fun other => (m.becomes_declare id name other).size

/-- Changes within the slots that a cell has or will have. -/
theorem change (m : Memory) (id : CellId) {f : Array Value → Array Value}
    (sizes : ∀ slots : Array Value,
      slots.size ≤ (f slots).size ∧ (f slots).size ≤ max slots.size (m.declared id)) :
    m.Evolves (m.change id f) where
  count := Nat.le_refl _
  scopes _ _ := .refl _
  sizes _ := Nat.le_refl _
  cells other slots has := by
    rw [cell_change]
    split
    · next here =>
      subst here
      rw [Cell.scope_change, Cell.slots_change, has]
      exact ⟨rfl, f slots, rfl, (sizes slots).1⟩
    · exact ⟨rfl, slots, has, Nat.le_refl _⟩
  snug snug other slots has := by
    rw [declared_change]
    rw [cell_change] at has
    split at has
    · next here =>
      subst here
      rw [Cell.slots_change, Option.map_eq_some_iff] at has
      obtain ⟨before, had, rfl⟩ := has
      have := snug other before had
      have := sizes before
      omega
    · exact snug other slots has

theorem overlay (m : Memory) (id : CellId) (start : Nat) (values : List Value) :
    m.Evolves (m.change id (CallEngine.overlay · start values)) := by
  apply change
  intro slots
  rw [size_overlay]
  omega

theorem padded (m : Memory) (id : CellId) :
    m.Evolves (m.change id (CallEngine.padded · (m.declared id))) := by
  apply change
  intro slots
  rw [size_padded]
  omega

theorem put (m : Memory) (id : CellId) (offset : Nat) (value : Value) :
    m.Evolves (m.put id offset value) := by
  rw [put_eq_change]
  apply change
  intro slots
  rw [size_stored]
  split <;> omega

/-- A further cell. -/
theorem push (evolves : m.Evolves m') {cell : Cell} (fits : m.Snug → ∀ slots,
      cell.slots = some slots → 0 < slots.size ∧ slots.size ≤ (m'.static cell.scope).size) :
    m.Evolves { m' with cells := m'.cells.push cell } where
  count := evolves.count
  scopes := evolves.scopes
  sizes := evolves.sizes
  cells id slots has := by
    obtain ⟨scope, later, has', fewer⟩ := evolves.cells id slots has
    have old : id ≠ m'.cells.size := by
      rintro rfl
      have none : (m'.cell m'.cells.size).slots = none := by
        simp [Memory.cell, Array.getD_eq_getD_getElem?]
        rfl
      rw [none] at has'
      cases has'
    rw [cell_push, if_neg old]
    exact ⟨scope, later, has', fewer⟩
  snug snug id slots has := by
    have same : ({ m' with cells := m'.cells.push cell } : Memory).static = m'.static := rfl
    rw [declared, same]
    rw [cell_push] at has ⊢
    split at has
    · next last =>
      rw [if_pos last]
      exact fits snug slots has
    · next old =>
      rw [if_neg old]
      exact evolves.snug snug id slots has

theorem allocate (m : Memory) (scope : StaticId) (parent : Env) :
    m.Evolves (m.allocate scope parent).2 := by
  apply push (refl m)
  intro _ slots has
  unfold Cell.fresh at has
  dsimp only at has
  split at has <;> cases has
  next some =>
  rw [Array.size_replicate]
  exact ⟨Nat.pos_of_ne_zero some, Nat.le_refl _⟩

theorem clone (m : Memory) (env : Env) : m.Evolves (m.clone env).2 := by
  induction env with
  | nil => exact refl m
  | cons id outer ih =>
    apply push ih
    intro snug slots has
    obtain ⟨positive, inside⟩ := snug id slots has
    exact ⟨positive, Nat.le_trans inside (ih.sizes _)⟩

theorem write {env : Env} {offset depth : Nat} {value : Value}
    (written : m.write env offset depth value = .ok m') : m.Evolves m' := by
  obtain ⟨id, -, done⟩ := Except.ok_of_bind written
  cases done
  exact put m id offset value

theorem writeArguments {env : Env} {values : List Value} {count : Nat}
    (written : m.writeArguments env values count = .ok m') : m.Evolves m' := by
  unfold Memory.writeArguments at written
  split at written
  · cases written
    exact refl m
  · obtain ⟨id, -, done⟩ := Except.ok_of_bind written
    cases done
    exact overlay m id 0 _

theorem grow {env : Env} (grown : m.grow env = .ok m') : m.Evolves m' := by
  rcases grow_ok grown with rfl | ⟨id, rfl⟩
  · exact refl _
  · exact padded m id

end Evolves

end Memory

/-- Whatever comes out, memory has evolved. -/
def Resolver.Evolving {α : Type} (resolver : Resolver α) : Prop :=
  ∀ m a m', resolver m = .ok a m' → m.Evolves m'

namespace Resolver.Evolving

variable {α β : Type}

theorem pure (a : α) : Evolving (Pure.pure a) := by
  intro m _ _ made
  cases made
  exact .refl m

theorem bind {first : Resolver α} {next : α → Resolver β} (evolving : first.Evolving)
    (rest : ∀ a, (next a).Evolving) : (first >>= next).Evolving := by
  intro m b m'' made
  simp only [Bind.bind, EStateM.bind] at made
  cases result : first m with
  | ok a m' =>
    rw [result] at made
    exact (evolving m a m' result).trans (rest a m' b m'' made)
  | error fault m' =>
    rw [result] at made
    cases made

theorem map {first : Resolver α} (evolving : first.Evolving) (f : α → β) :
    Evolving (do return f (← first)) :=
  evolving.bind fun _ => pure _

theorem enter (scope : StaticScope) : (Resolver.enter scope).Evolving := by
  intro m _ _ made
  cases made
  exact .addStatic m scope

theorem enterClosure (parent : StaticId) (decl : ScopeDecl) :
    (Resolver.enterClosure parent decl).Evolving :=
  fun m => enter
    { kind := .closure, enclosing := parent :: (m.static parent).enclosing, vars := decl.vars } m

theorem enterMethod (decl : ScopeDecl) : (Resolver.enterMethod decl).Evolving := by
  unfold Resolver.enterMethod
  split
  · exact enter _
  · exact nofun

end Resolver.Evolving

namespace Tree
open Resolver.Evolving

mutual

theorem resolve_evolving (parent : StaticId) (source : Source) :
    (source.resolve parent).Evolving := by
  cases source with
  | nil | bool | int | str | self | localGet | globalGet | bareCall | methodRef | redo | retry
  | constant | superCall | blockGiven => exact pure _
  | array items | seq items | yield items => exact map (resolveAll_evolving parent items) _
  | localSet _ _ value | globalSet _ value | raise value =>
    exact map (resolve_evolving parent value) _
  | cond test yes no =>
    exact bind (resolve_evolving parent test) fun _ => bind (resolve_evolving parent yes) fun _ =>
      map (resolveOption_evolving parent no) _
  | binary _ left right | loop left right | rescue left right =>
    exact bind (resolve_evolving parent left) fun _ => map (resolve_evolving parent right) _
  | call receiver _ args block =>
    exact bind (resolveOption_evolving parent receiver) fun _ =>
      bind (resolveAll_evolving parent args) fun _ => map (resolveBlock_evolving parent block) _
  | makeProc literal | makeLambda literal => exact map (resolveLiteral_evolving parent literal) _
  | doReturn value | doBreak value | doNext value =>
    exact map (resolveOption_evolving parent value) _
  | define _ decl params body =>
    exact bind (enterMethod decl) fun scope => bind (resolveParams_evolving scope params) fun _ =>
      map (resolve_evolving scope body) _
  | classBody _ _ _ decl body =>
    exact bind (enterMethod decl) fun scope => map (resolve_evolving scope body) _

theorem resolveAll_evolving (parent : StaticId) (items : List Source) :
    (resolveAll parent items).Evolving := by
  cases items with
  | nil => exact pure _
  | cons item rest =>
    exact bind (resolve_evolving parent item) fun _ => map (resolveAll_evolving parent rest) _

theorem resolveOption_evolving (parent : StaticId) (value : Option Source) :
    (resolveOption parent value).Evolving := by
  cases value with
  | none => exact pure _
  | some value => exact map (resolve_evolving parent value) _

theorem resolveLiteral_evolving (parent : StaticId) (literal : Literal ScopeDecl Source) :
    (resolveLiteral parent literal).Evolving := by
  obtain ⟨decl, params, body⟩ := literal
  exact bind (enterClosure parent decl) fun scope => map (resolve_evolving scope body) _

theorem resolveBlock_evolving (parent : StaticId)
    (block : BlockArg (Literal ScopeDecl Source) Source) :
    (resolveBlock parent block).Evolving := by
  cases block with
  | absent => exact pure _
  | literal literal => exact map (resolveLiteral_evolving parent literal) _
  | pass value => exact map (resolve_evolving parent value) _

theorem resolveParams_evolving (scope : StaticId) (params : Params Source) :
    (resolveParams scope params).Evolving := by
  obtain ⟨required, optional, rest, block⟩ := params
  exact map (resolveOptional_evolving scope optional) _

theorem resolveOptional_evolving (scope : StaticId) (params : List (OptionalParam Source)) :
    (resolveOptional scope params).Evolving := by
  match params with
  | [] => exact pure _
  | ⟨slot, fallback⟩ :: rest =>
    exact bind (resolve_evolving scope fallback) fun _ => map (resolveOptional_evolving scope rest) _

end

end Tree

end CallEngine
