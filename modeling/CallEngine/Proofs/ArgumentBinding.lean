import CallEngine.Proofs.Variables
/-! Arguments that a call binds to parameters and that a call of super collects again.

The parameters take the first slots of the cell in turn, so that the cell always begins with the
values bound so far. Each write adds one of them, and a fallback that leaves the cell alone adds
none; what is collected in the end are the arguments and after them the fallbacks' values. -/
namespace CallEngine
open Eval

namespace Params

/-- How many slots the required and the optional parameters take. -/
def positional (params : Params Node) : Nat := params.required + params.optional.length

/-- How many slots all parameters but the block take. -/
def width (params : Params Node) : Nat :=
  params.positional +
    match params.rest with
    | .named _ => 1
    | _ => 0

/-- The optional parameters come after the required ones, then the rest parameter, if there is one,
and the block after all of them. -/
structure InOrder (params : Params Node) : Prop where
  optional : ∀ (place : Nat) param, params.optional[place]? = some param →
    param.slot = params.required + place
  rest : params.rest = .absent ∨ params.rest = .named params.positional
  block : ∀ slot, params.block = some slot → params.width ≤ slot

end Params

/-- A fallback that was evaluated, and the states around it. -/
structure Evaluation where
  node : Node
  before : State
  value : Value
  after : State

namespace Eval

variable (eval : Node → Eval Value) (env : Env)

/-- The fallbacks that binding the optional parameters evaluates, in turn. -/
def fallbackRuns : List (OptionalParam Node) → List Value → State → List Evaluation
  | [], _, _ => []
  | param :: params, [], s =>
    match eval param.fallback s with
    | .ok value s' =>
      ⟨param.fallback, s, value, s'⟩ ::
        match writeVariable env param.slot 0 value s' with
        | .ok _ t => fallbackRuns params [] t
        | .error .. => []
    | .error .. => []
  | param :: params, arg :: args, s =>
    match writeVariable env param.slot 0 arg s with
    | .ok _ t => fallbackRuns params args t
    | .error .. => []

/-- What is written before the optional parameters are bound. -/
def bindRequired (params : Params Node) (args : List Value) (block : Option ClosureId) :
    Eval Unit := do
  writeOption env params.block (block.elim .nil .proc)
  writeArguments env args (min params.required args.length)

/-- The fallbacks that binding the arguments of a call evaluates, in turn. -/
def bindingRuns (params : Params Node) (args : List Value) (block : Option ClosureId) (s : State) :
    List Evaluation :=
  match bindRequired env params args block s with
  | .ok _ t => fallbackRuns eval env params.optional (args.drop params.required) t
  | .error .. => []

end Eval

/-- A computation that gives a value gave one at its first step. -/
theorem Eval.ok_of_bind {α β : Type} {x : Eval α} {f : α → Eval β} {s t : State} {b : β}
    (ends : (x >>= f) s = .ok b t) : ∃ a u, x s = .ok a u ∧ f a u = .ok b t := by
  simp only [bind, EStateM.bind] at ends
  cases first : x s with
  | ok a u => exact ⟨a, u, rfl, by rwa [first] at ends⟩
  | error halt u =>
    rw [first] at ends
    cases ends

/-- Nor did it find a fault where it looked first. -/
theorem Eval.ok_of_orFault {α β : Type} {view : State → Except Fault α} {f : α → Eval β} {s t : State}
    {b : β} (ends : (Eval.read view >>= fun result => orFault result >>= f) s = .ok b t) :
    ∃ a, view s = .ok a ∧ f a s = .ok b t := by
  change (orFault (view s) >>= f) s = .ok b t at ends
  cases found : view s with
  | ok a =>
    rw [found] at ends
    exact ⟨a, rfl, ends⟩
  | error fault =>
    rw [found] at ends
    cases ends

theorem Eval.writeVariable_ok {env : Env} {offset depth : Nat} {value : Value} {s t : State}
    {u : Unit} (ends : writeVariable env offset depth value s = .ok u t) :
    s.shared.memory.write env offset depth value = .ok t.shared.memory := by
  obtain ⟨id, reached, done⟩ := ok_of_orFault ends
  cases done
  rw [Memory.write, reached]
  rfl

theorem Eval.writeArguments_ok {env : Env} {values : List Value} {count : Nat} {s t : State}
    {u : Unit} (ends : writeArguments env values count s = .ok u t) :
    s.shared.memory.writeArguments env values count = .ok t.shared.memory := by
  unfold Eval.writeArguments at ends
  rw [Memory.writeArguments]
  split at ends
  · next none =>
    cases ends
    rw [if_pos none]
  · next some =>
    obtain ⟨id, reached, done⟩ := ok_of_orFault ends
    cases done
    rw [if_neg some, reached]
    rfl

/-- Up to the last value, the slots are those before the first one and then the values. -/
theorem take_overlay {slots : Array Value} {start : Nat} {values : List Value}
    (fits : start + values.length ≤ slots.size) :
    (overlay slots start values).toList.take (start + values.length) =
      slots.toList.take start ++ values := by
  induction values generalizing slots start with
  | nil => simp [overlay]
  | cons value rest ih =>
    have fits' : start + 1 + rest.length ≤ slots.size := by
      simp only [List.length_cons] at fits
      omega
    have next := @ih (slots.setIfInBounds start value) (start + 1) (by simpa)
    have here : start < slots.toList.length := by
      simp only [Array.length_toList]
      omega
    rw [overlay, List.length_cons, show start + (rest.length + 1) = start + 1 + rest.length by omega,
      next, Array.toList_setIfInBounds, List.take_succ_eq_append_getElem (by simpa)]
    simp [List.take_set_of_le]

namespace Memory

variable {m m' : Memory} {params : Params Node} {id : CellId} {outer : Env} {values : List Value}
  {value blockValue : Value}

/-- The slots of a cell, none if it has no storage. -/
def slotsOf (m : Memory) (id : CellId) : Array Value := (m.cell id).slots.getD #[]

/-- A cell of a method's scope that has the parameters' layout, with slots for the parameters. -/
structure MethodCell (m : Memory) (id : CellId) (params : Params Node) : Prop where
  known : (m.cell id).scope < m.statics.size
  kind : (m.static (m.cell id).scope).kind = .method
  layout : (m.static (m.cell id).scope).layout = params.arity
  room : params.width ≤ (m.slotsOf id).size

/-- The slots begin with these values, and the block is in its own. -/
structure Begins (m : Memory) (id : CellId) (params : Params Node) (blockValue : Value)
    (values : List Value) : Prop extends m.MethodCell id params where
  values : (m.slotsOf id).toList.take values.length = values
  block : ∀ slot, params.block = some slot → ∀ outer, m.read (id :: outer) slot 0 = .ok blockValue

theorem MethodCell.storage (cell : m.MethodCell id params) (some : 0 < params.width) :
    ∃ slots, (m.cell id).slots = .some slots := by
  have room := cell.room
  unfold slotsOf at room
  cases has : (m.cell id).slots with
  | none =>
    rw [has] at room
    exact absurd (Nat.lt_of_lt_of_le some room) (Nat.lt_irrefl 0)
  | some slots => exact ⟨slots, rfl⟩

/-- Other changes of memory leave a cell a method's. -/
theorem MethodCell.later (cell : m.MethodCell id params) (evolves : m.Evolves m')
    (scope : (m'.cell id).scope = (m.cell id).scope) (room : params.width ≤ (m'.slotsOf id).size) :
    m'.MethodCell id params := by
  have becomes := evolves.scopes _ cell.known
  constructor
  · rw [scope]
    exact Nat.lt_of_lt_of_le cell.known evolves.count
  · rw [scope, becomes.kind]
    exact cell.kind
  · rw [scope, becomes.layout]
    exact cell.layout
  · exact room

/-- With more variables declared, a cell with the same slots reads the same. -/
theorem read_of_slots {offset : Nat} (evolves : m.Evolves m')
    (scope : (m'.cell id).scope = (m.cell id).scope)
    (slots : (m'.cell id).slots = (m.cell id).slots)
    (has : m.read (id :: outer) offset 0 = .ok value) :
    m'.read (id :: outer) offset 0 = .ok value := by
  have aimed : ancestor (id :: outer) 0 = .ok id := rfl
  rw [read_of_ancestor aimed] at has ⊢
  have same : m'.slots id = m.slots id := by
    rw [Memory.slots, Memory.slots, slots]
  have more : m.declared id ≤ m'.declared id := by
    rw [declared, declared, scope]
    exact evolves.sizes _
  obtain ⟨found, storage, has⟩ := Except.ok_of_bind has
  rw [same, storage]
  exact slotValue_mono more has

theorem Begins.later (begins : m.Begins id params blockValue values) (evolves : m.Evolves m')
    (scope : (m'.cell id).scope = (m.cell id).scope)
    (slots : (m'.cell id).slots = (m.cell id).slots) : m'.Begins id params blockValue values := by
  have same : m'.slotsOf id = m.slotsOf id := by
    rw [slotsOf, slotsOf, slots]
  constructor
  · exact begins.toMethodCell.later evolves scope (same ▸ begins.room)
  · rw [same]
    exact begins.values
  · intro slot isBlock outer
    exact read_of_slots evolves scope slots (begins.block slot isBlock outer)

/-- Where one cell's slots are changed, it stays the cell it was. -/
theorem MethodCell.change (cell : m.MethodCell id params) {f : Array Value → Array Value}
    (room : ∀ slots, params.width ≤ slots.size → params.width ≤ (f slots).size) :
    (m.change id f).MethodCell id params := by
  have scope : ((m.change id f).cell id).scope = (m.cell id).scope := by
    rw [cell_change, if_pos rfl, Cell.scope_change]
  have statics (scope : StaticId) : (m.change id f).static scope = m.static scope := rfl
  constructor
  · rw [scope]
    exact cell.known
  · rw [scope, statics]
    exact cell.kind
  · rw [scope, statics]
    exact cell.layout
  · have before := cell.room
    unfold slotsOf at before ⊢
    rw [cell_change, if_pos rfl, Cell.slots_change]
    cases has : (m.cell id).slots with
    | none =>
      rw [has] at before
      exact before
    | some slots =>
      rw [has] at before
      exact room slots before

theorem slotsOf_change {f : Array Value → Array Value} {slots : Array Value}
    (storage : (m.cell id).slots = some slots) : (m.change id f).slotsOf id = f slots := by
  rw [slotsOf, cell_change, if_pos rfl, Cell.slots_change, storage]
  rfl

/-- The slots have one more value once it is written after the others. -/
theorem Begins.write (begins : m.Begins id params blockValue values) (order : params.InOrder)
    (inside : values.length < params.width)
    (written : m.write (id :: outer) values.length 0 value = .ok m') :
    m'.Begins id params blockValue (values ++ [value]) := by
  obtain ⟨slots, storage⟩ := begins.storage (Nat.zero_lt_of_lt inside)
  have room := begins.room
  have same := begins.values
  rw [slotsOf, storage] at room same
  have there : values.length < slots.size := Nat.lt_of_lt_of_le inside room
  obtain ⟨cell, reached, changed⟩ := write_ok written
  obtain rfl : id = cell := Except.ok.inj (writable_room reached).1
  constructor
  · rw [changed]
    refine begins.toMethodCell.change fun slots wide => ?_
    rw [size_stored]
    split <;> omega
  · rw [changed, slotsOf_change storage, stored, if_pos there]
    have inList : values.length < slots.toList.length := there
    rw [List.length_append, List.length_singleton, Array.toList_setIfInBounds,
      List.take_succ_eq_append_getElem (by simpa using there)]
    simp only [List.take_set_of_le (Nat.le_refl _), List.getElem_set_self]
    exact congrArg (· ++ [value]) same
  · intro slot isBlock outer'
    have apart : values.length ≠ slot :=
      Nat.ne_of_lt (Nat.lt_of_lt_of_le inside (order.block slot isBlock))
    rw [(read_write written (id :: outer') slot 0).2 fun alike => apart alike.1]
    exact begins.block slot isBlock outer'

/-- The block is written while the slots of the other parameters are free. -/
theorem MethodCell.begins (cell : m.MethodCell id params)
    (written : ∀ slot, params.block = some slot →
      ∃ outer, m.write (id :: outer) slot 0 blockValue = .ok m')
    (unwritten : params.block = none → m' = m) : m'.Begins id params blockValue [] := by
  cases isBlock : params.block with
  | none =>
    obtain rfl := unwritten isBlock
    exact ⟨cell, rfl, fun slot has => nomatch isBlock.symm.trans has⟩
  | some slot =>
    obtain ⟨outer, written⟩ := written slot isBlock
    obtain ⟨own, reached, changed⟩ := write_ok written
    obtain rfl : id = own := Except.ok.inj (writable_room reached).1
    refine ⟨?_, rfl, ?_⟩
    · rw [changed]
      refine cell.change fun slots wide => ?_
      rw [size_stored]
      split <;> omega
    · intro slot' has outer'
      obtain rfl : slot = slot' := Option.some.inj (isBlock.symm.trans has)
      exact (read_write written (id :: outer') slot 0).1 ⟨rfl, id, rfl, rfl⟩

theorem slotValue_overlay {declared start offset : Nat} {slots : Array Value} {values : List Value}
    (fits : start + values.length ≤ slots.size) (after : start + values.length ≤ offset) :
    slotValue declared offset (overlay slots start values) = slotValue declared offset slots := by
  induction values generalizing slots start with
  | nil => rfl
  | cons value rest ih =>
    rw [List.length_cons] at fits after
    have fits' : start + 1 + rest.length ≤ (slots.setIfInBounds start value).size := by
      rw [Array.size_setIfInBounds]
      omega
    rw [overlay, ih fits' (by omega), slotValue_setIfInBounds (by omega), if_neg (by omega)]

/-- The required parameters are written at once. -/
theorem Begins.writeArguments {args : List Value} (begins : m.Begins id params blockValue [])
    (order : params.InOrder) (enough : params.required ≤ args.length)
    (written : m.writeArguments (id :: outer) args params.required = .ok m') :
    m'.Begins id params blockValue (args.take params.required) := by
  unfold Memory.writeArguments at written
  split at written
  · next none =>
    cases written
    rw [none]
    exact begins
  · obtain ⟨own, found, done⟩ := Except.ok_of_bind written
    cases done
    obtain ⟨here, looked, rest⟩ := Except.ok_of_bind found
    obtain ⟨slots, has, done⟩ := Except.ok_of_bind rest
    cases looked
    cases done
    have storage : (m.cell id).slots = some slots := by
      unfold Memory.slots at has
      split at has <;> cases has
      assumption
    have length : (args.take params.required).length = params.required :=
      List.length_take_of_le enough
    have wide : params.required ≤ params.width :=
      Nat.le_trans (Nat.le_add_right _ _) (Nat.le_add_right _ _)
    have room : params.width ≤ slots.size := by
      have room := begins.room
      rwa [slotsOf, storage] at room
    have fits : 0 + (args.take params.required).length ≤ slots.size := by omega
    constructor
    · exact begins.toMethodCell.change fun slots wide => by rwa [size_overlay]
    · rw [slotsOf_change storage]
      simpa using take_overlay fits
    · intro slot isBlock outer'
      have aimed : ancestor (id :: outer') 0 = .ok id := rfl
      have before := begins.block slot isBlock outer'
      have after : 0 + (args.take params.required).length ≤ slot := by
        have last := order.block slot isBlock
        omega
      rw [read_of_ancestor aimed, has] at before
      rw [read_change aimed, has]
      exact (slotValue_overlay fits after).trans before

end Memory

namespace Eval
open Memory (Evolves Begins)

variable {eval : Node → Eval Value} {params : Params Node} {id : CellId} {outer : Env}
  {blockValue : Value}

/-- Binding the optional parameters adds their values, of arguments first and then of fallbacks. -/
theorem bindOptional_begins (order : params.InOrder)
    (evolves : ∀ node, Moves (fun s t => s.shared.memory.Evolves t.shared.memory) (eval node))
    {optional : List (OptionalParam Node)} {args values rest : List Value} {s t : State}
    (slots : ∀ (place : Nat) param, optional[place]? = some param →
      param.slot = values.length + place)
    (inside : values.length + optional.length ≤ params.width)
    (begins : s.shared.memory.Begins id params blockValue values)
    (ends : bindOptional eval (id :: outer) optional args s = .ok rest t)
    (untouched : ∀ run ∈ fallbackRuns eval (id :: outer) optional args s,
      (run.after.shared.memory.cell id).slots = (run.before.shared.memory.cell id).slots) :
    t.shared.memory.Begins id params blockValue (values ++ args.take optional.length ++
      (fallbackRuns eval (id :: outer) optional args s).map Evaluation.value) ∧
    rest = args.drop optional.length := by
  -- Each parameter takes the next slot, so what the slots begin with grows by one value.
  induction optional generalizing args values s with
  | nil =>
    cases ends
    simpa [fallbackRuns] using begins
  | cons param others ih =>
    have here : param.slot = values.length := slots 0 param rfl
    rw [List.length_cons] at inside
    have free : values.length < params.width := by omega
    have later (value : Value) (place : Nat) (other : OptionalParam Node)
        (there : others[place]? = some other) :
        other.slot = (values ++ [value]).length + place := by
      have slot := slots (place + 1) other there
      rw [List.length_append, List.length_singleton]
      omega
    have shorter (value : Value) : (values ++ [value]).length + others.length ≤ params.width := by
      rw [List.length_append, List.length_singleton]
      omega
    cases args with
    | nil =>
      obtain ⟨value, s', evaluated, done⟩ := ok_of_bind ends
      obtain ⟨_, s'', written, ends⟩ := ok_of_bind done
      rw [fallbackRuns, evaluated] at untouched ⊢
      simp only [written] at untouched ⊢
      obtain ⟨same, untouched⟩ := List.forall_mem_cons.mp untouched
      have moved := evolves param.fallback s
      rw [evaluated] at moved
      obtain ⟨stored, storage⟩ := begins.storage (Nat.zero_lt_of_lt free)
      have kept := begins.later moved (moved.cells id stored storage).1 same
      have added := kept.write order free (here ▸ writeVariable_ok written)
      obtain ⟨begins, left⟩ := ih (later value) (shorter value) added ends untouched
      refine ⟨?_, by simpa using left⟩
      simpa using begins
    | cons arg args =>
      obtain ⟨_, s', written, ends⟩ := ok_of_bind ends
      rw [fallbackRuns, written] at untouched ⊢
      have added := begins.write order free (here ▸ writeVariable_ok written)
      obtain ⟨begins, left⟩ := ih (later arg) (shorter arg) added ends untouched
      refine ⟨?_, by simpa using left⟩
      simpa using begins

/-- A fallback is evaluated for every optional parameter that no argument is left for. -/
theorem fallbackRuns_nodes {env : Env} {optional : List (OptionalParam Node)}
    {args rest : List Value} {s t : State}
    (ends : bindOptional eval env optional args s = .ok rest t) :
    (fallbackRuns eval env optional args s).map Evaluation.node =
      (optional.drop args.length).map OptionalParam.fallback ∧
    ∀ run ∈ fallbackRuns eval env optional args s,
      eval run.node run.before = .ok run.value run.after := by
  induction optional generalizing args s with
  | nil => simp [fallbackRuns]
  | cons param others ih =>
    cases args with
    | nil =>
      obtain ⟨value, s', evaluated, done⟩ := ok_of_bind ends
      obtain ⟨_, s'', written, ends⟩ := ok_of_bind done
      obtain ⟨nodes, runs⟩ := ih ends
      rw [fallbackRuns, evaluated]
      simp only [written]
      refine ⟨?_, List.forall_mem_cons.mpr ⟨evaluated, runs⟩⟩
      simpa using nodes
    | cons arg args =>
      obtain ⟨_, s', written, ends⟩ := ok_of_bind ends
      rw [fallbackRuns, written]
      simpa using ih ends

end Eval

namespace Memory

variable {m : Memory} {params : Params Node} {id : CellId} {outer inner : Env} {values : List Value}
  {blockValue : Value}

/-- Closures pass on the arguments of the method around them. -/
theorem arguments_closures
    (closures : ∀ cell ∈ inner, (m.static (m.cell cell).scope).kind = .closure) (env : Env) :
    m.arguments (inner ++ env) = m.arguments env := by
  induction inner with
  | nil => rfl
  | cons first rest ih =>
    obtain ⟨closure, closures⟩ := List.forall_mem_cons.mp closures
    rw [List.cons_append, arguments, closure, if_neg nofun, ih closures]

/-- What a cell with these slots has as its parameters. -/
theorem MethodCell.arguments (cell : m.MethodCell id params) (outer : Env) :
    m.arguments (id :: outer) = (m.slotsOf id).toList.take params.positional ++
      match (m.slotsOf id)[params.positional]? with
      | some (.array items) => if params.rest = .absent then [] else items.toList
      | _ => [] := by
  have positional : (m.static (m.cell id).scope).positional = params.positional := by
    rw [StaticScope.positional, cell.layout]
    rfl
  have rest : (m.static (m.cell id).scope).layout.rest = (params.rest != .absent) := by
    rw [cell.layout]
    rfl
  rw [Memory.arguments, if_pos cell.kind, cellArguments, slotsOf]
  dsimp only
  rw [positional, rest]
  cases (m.cell id).slots with
  | none => simp
  | some slots =>
    simp only [Option.getD_some, Array.toList_extract, List.extract_eq_take_drop, Nat.sub_zero,
      List.drop_zero]
    generalize slots[params.positional]? = next
    rcases next with _ | (_ | _)
    all_goals by_cases absent : params.rest = .absent <;> simp [absent]

theorem Begins.arguments_absent (begins : m.Begins id params blockValue values)
    (full : values.length = params.positional) (absent : params.rest = .absent) (outer : Env) :
    m.arguments (id :: outer) = values := by
  have same := begins.values
  rw [full] at same
  rw [begins.arguments, same]
  split <;> simp [absent]

theorem Begins.arguments_rest {items : Array Value}
    (begins : m.Begins id params blockValue (values ++ [.array items]))
    (full : values.length = params.positional) (present : params.rest ≠ .absent) (outer : Env) :
    m.arguments (id :: outer) = values ++ items.toList := by
  have same := begins.values
  rw [List.length_append, List.length_singleton, full] at same
  have positional : (m.slotsOf id).toList.take params.positional = values := by
    have shorter := congrArg (List.take params.positional) same
    rw [List.take_take, Nat.min_eq_left (Nat.le_succ _), ← full, List.take_left'] at shorter
    · rw [← full]
      exact shorter
    · rfl
  have last : (m.slotsOf id)[params.positional]? = some (.array items) := by
    rw [← Array.getElem?_toList]
    have there := congrArg (·[params.positional]?) same
    simp only [List.getElem?_take_of_lt (Nat.lt_succ_self _)] at there
    rw [there, ← full, List.getElem?_concat_length]
  rw [begins.arguments, positional, last]
  simp [present]

end Memory

theorem Arity.check_ok {arity : Arity} {count : Nat} (accepted : arity.check count = .ok ()) :
    arity.required ≤ count ∧ (arity.rest = false → count ≤ arity.required + arity.optional) := by
  unfold Arity.check Arity.max at accepted
  split at accepted
  · cases accepted
  · next enough =>
    refine ⟨Nat.le_of_not_lt enough, fun fixed => ?_⟩
    rw [fixed] at accepted
    simp only [Bool.false_eq_true, if_false] at accepted
    split at accepted
    · cases accepted
    · omega

namespace Eval
open Memory (Evolves)

theorem evolves_eval (bound fuel : Nat) (node : Node) :
    Moves (fun s t => s.shared.memory.Evolves t.shared.memory)
      (Tree.eval bound (answer fuel) node) :=
  have h := Evolves.hosting
  h.eval (h.answer fuel) bound (fun _ => trivial) node

/-- What binding the arguments comes to, once the environment is known. -/
theorem bindArguments_steps {eval : Node → Eval Value} {params : Params Node} {args : List Value}
    {block : Option ClosureId} {env : Env} {more : List Env} {s t : State}
    (here : s.context.scopes = env :: more) (enough : params.required ≤ args.length)
    (ends : bindArguments eval params args block s = .ok () t) :
    ∃ u u' u'' rest, writeOption env params.block (block.elim .nil .proc) s = .ok () u ∧
      writeArguments env args params.required u = .ok () u' ∧
      bindOptional eval env params.optional (args.drop params.required) u' = .ok rest u'' ∧
      (match params.rest with
        | .named slot => writeVariable env slot 0 (.array rest.toArray)
        | _ => pure ()) u'' = .ok () t ∧
      bindingRuns eval env params args block s =
        fallbackRuns eval env params.optional (args.drop params.required) u' := by
  have count : min params.required args.length = params.required := Nat.min_eq_left enough
  obtain ⟨own, s', looked, ends⟩ := ok_of_bind ends
  have current : currentEnv s = .ok env s := by
    simp only [currentEnv, bind, EStateM.bind, Eval.read, here]
    rfl
  rw [current] at looked
  cases looked
  obtain ⟨_, u, blocked, ends⟩ := ok_of_bind ends
  obtain ⟨_, u', required, ends⟩ := ok_of_bind ends
  obtain ⟨rest, u'', optional, ends⟩ := ok_of_bind ends
  rw [count] at required optional
  refine ⟨u, u', u'', rest, blocked, required, optional, ends, ?_⟩
  have first : bindRequired env params args block s = .ok () u' := by
    rw [bindRequired, count, bind_ok blocked, required]
  rw [bindingRuns, first]

/-- Binding evaluates the fallbacks of the parameters that get no argument. If they leave the slots of
the method alone, then the method and the closures in it resend the arguments and after them the
fallbacks' values, as long as nothing else is written to these slots, and the block is where
the parameters have it. -/
theorem arguments_resent {bound fuel : Nat} {params : Params Node} {args : List Value}
    {block : Option ClosureId} {id : CellId} {outer : Env} {more : List Env} {s t : State}
    (here : s.context.scopes = (id :: outer) :: more)
    (cell : s.shared.memory.MethodCell id params) (order : params.InOrder)
    (accepted : params.arity.check args.length = .ok ())
    (ends : bindArguments (Tree.eval bound (answer fuel)) params args block s = .ok () t) :
    let runs := bindingRuns (Tree.eval bound (answer fuel)) (id :: outer) params args block s
    runs.map Evaluation.node =
      (params.optional.drop (args.length - params.required)).map OptionalParam.fallback ∧
    (∀ run ∈ runs, Tree.eval bound (answer fuel) run.node run.before = .ok run.value run.after) ∧
    ((∀ run ∈ runs, (run.after.shared.memory.cell id).slots =
        (run.before.shared.memory.cell id).slots) →
      (∀ m, t.shared.memory.Evolves m → m.cell id = t.shared.memory.cell id →
        ∀ inner, (∀ closure ∈ inner, (m.static (m.cell closure).scope).kind = .closure) →
          m.arguments (inner ++ id :: outer) = args ++ runs.map Evaluation.value) ∧
      ∀ slot, params.block = some slot →
        t.shared.memory.read (id :: outer) slot 0 = .ok (block.elim .nil .proc)) := by
  intro runs
  obtain ⟨enough, atMost⟩ : params.required ≤ args.length ∧
      (params.arity.rest = false → args.length ≤ params.positional) := Arity.check_ok accepted
  obtain ⟨u, u', u'', rest, blocked, required, optional, last, same⟩ :=
    bindArguments_steps here enough ends
  have same : runs = fallbackRuns (Tree.eval bound (answer fuel)) (id :: outer) params.optional
    (args.drop params.required) u' := same
  obtain ⟨nodes, evaluated⟩ := fallbackRuns_nodes optional
  rw [← same] at nodes evaluated
  refine ⟨by simpa using nodes, evaluated, fun untouched => ?_⟩
  have begun : u.shared.memory.Begins id params (block.elim .nil .proc) [] := by
    refine cell.begins (fun slot isBlock => ?_) fun none => ?_
    · rw [isBlock] at blocked
      exact ⟨outer, writeVariable_ok blocked⟩
    · rw [none] at blocked
      cases blocked
      rfl
  have begun := begun.writeArguments order enough (writeArguments_ok required)
  have length : (args.take params.required).length = params.required :=
    List.length_take_of_le enough
  have wide : params.positional ≤ params.width := Nat.le_add_right _ _
  have filled := bindOptional_begins order (evolves_eval bound fuel)
    (fun place param there => length.symm ▸ order.optional place param there)
    (length.symm ▸ wide) begun optional (same ▸ untouched)
  rw [← same] at filled
  obtain ⟨filled, rfl⟩ := filled
  have count := congrArg List.length nodes
  simp only [List.length_map, List.length_drop] at count
  have full : (args.take params.required ++ (args.drop params.required).take params.optional.length ++
      runs.map Evaluation.value).length = params.positional := by
    simp only [List.length_append, List.length_map, List.length_take, List.length_drop, count,
      Params.positional]
    omega
  have bound : ∃ values, t.shared.memory.Begins id params (block.elim .nil .proc) values ∧
      ∀ m : Memory, m.Begins id params (block.elim .nil .proc) values →
        m.arguments (id :: outer) = args ++ runs.map Evaluation.value := by
    rcases order.rest with absent | named
    · rw [absent] at last
      cases last
      refine ⟨_, filled, fun m begins => ?_⟩
      have few := atMost (by rw [Params.arity, absent]; rfl)
      have all : (args.drop params.required).length ≤ params.optional.length := by
        rw [List.length_drop]
        exact Nat.sub_le_of_le_add (Nat.add_comm _ _ ▸ few)
      rw [begins.arguments_absent full absent, List.take_of_length_le all, List.take_append_drop]
    · rw [named] at last
      have present : params.rest ≠ .absent := named ▸ nofun
      have free : params.positional < params.width := by simp [Params.width, named]
      have written := writeVariable_ok last
      rw [← full] at free written
      refine ⟨_, filled.write order free written, fun m begins => ?_⟩
      rw [begins.arguments_rest full present, List.append_assoc, List.append_assoc]
      -- Either no argument is left for the rest parameter or none is missing for the others.
      by_cases few : (args.drop params.required).length ≤ params.optional.length
      · simp only [List.take_of_length_le few, List.drop_eq_nil_of_le few, List.append_nil]
        rw [← List.append_assoc, List.take_append_drop]
      · have none : runs = [] := by
          rw [List.length_drop] at few
          exact List.eq_nil_of_length_eq_zero (by omega)
        rw [none, List.map_nil, List.nil_append, List.append_nil, List.take_append_drop,
          List.take_append_drop]
  obtain ⟨values, bound, resent⟩ := bound
  refine ⟨fun m evolves kept inner closures => ?_, fun slot isBlock => bound.block slot isBlock _⟩
  rw [Memory.arguments_closures closures]
  exact resent m (bound.later evolves (congrArg Cell.scope kept) (congrArg Cell.slots kept))

/-- One parameter of each kind. -/
def eachKind : Params Node where
  required := 1
  optional := [⟨1, .int 1⟩]
  rest := .named 2
  block := some 3

/-- A method of these parameters has been entered, and a closure in it. -/
def insideEachKind : State where
  shared.memory := ((({} : Memory).addStatic
    { vars := ["a", "b", "rest", "block"], layout := eachKind.arity }).2.addStatic
    { kind := .closure, enclosing := [0], vars := ["c"] }).2.allocate 0 [] |>.2.allocate 1 [0] |>.2
  context := { id := 0, stack := .empty none, scopes := [[0]], main := default }

theorem arguments_resent_fallback :
    let ends := bindArguments (Tree.eval 1 (answer 1)) eachKind [.int 7] (some 5) insideEachKind
    halted ends = none ∧
    (finalState ends).shared.memory.arguments [1, 0] = [.int 7, .int 1] ∧
    (finalState ends).shared.memory.read [0] 3 0 = .ok (.proc 5) := by
  intro ends
  have order : eachKind.InOrder := by
    refine ⟨fun place param there => ?_, .inr rfl, fun slot isBlock => ?_⟩
    · obtain ⟨inside, rfl⟩ := List.getElem?_eq_some_iff.mp there
      obtain rfl : place = 0 := Nat.lt_one_iff.mp inside
      rfl
    · cases isBlock
      decide
  have cell : insideEachKind.shared.memory.MethodCell 0 eachKind :=
    ⟨by decide, by decide, by decide, by decide⟩
  have isBound : bindArguments (Tree.eval 1 (answer 1)) eachKind [.int 7] (some 5) insideEachKind =
      .ok () (finalState ends) := rfl
  obtain ⟨-, -, resent⟩ := arguments_resent rfl cell order rfl isBound
  -- The one fallback is a number, so the state after it is the state before it.
  have untouched : ∀ run ∈ bindingRuns (Tree.eval 1 (answer 1)) [0] eachKind [.int 7] (some 5)
      insideEachKind, run.after = run.before := by
    intro run member
    obtain rfl := List.mem_singleton.mp member
    rfl
  obtain ⟨collected, blockBound⟩ := resent fun run member => by rw [untouched run member]
  refine ⟨rfl, ?_, blockBound 3 rfl⟩
  exact collected _ (.refl _) rfl [1] (List.forall_mem_singleton.mpr rfl)

end Eval

end CallEngine
