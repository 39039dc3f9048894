import CallEngine.Proofs.ArgumentBinding
/-! Values that are spread over the parameters of a closure. Each parameter gets the value in its
place and the rest parameter those that are left, so the values can be read back in order. Nothing
else is written. -/
namespace CallEngine
open Eval

/-- The items of the list that is the only argument, else the items of a list, else the value
alone. -/
def Value.spread (value : Value) (isPacked : Bool) : List Value :=
  match value with
  | .array items =>
    match items.toList, isPacked with
    | [.array inner], true => inner.toList
    | items, _ => items
  | value => [value]

theorem onlyArray?_getD (items : Array Value) :
    ((onlyArray? items).getD items).toList = (Value.array items).spread true := by
  obtain ⟨items⟩ := items
  rcases items with _ | ⟨first, _ | ⟨second, rest⟩⟩
  · rfl
  · cases first <;> rfl
  · simp [onlyArray?, Value.spread]

theorem spreadValues_toList (value : Value) (isPacked : Bool) :
    (spreadValues value isPacked).toList = value.spread isPacked := by
  cases value with
  | array items =>
    cases isPacked with
    | true => exact onlyArray?_getD items
    | false =>
      unfold Value.spread
      dsimp only
      split
      · next flag => cases flag
      · rfl
  | _ => rfl

namespace Memory

variable {m m₁ m₂ : Memory} {env : Env} {slot : Nat} {value : Value}

/-- The innermost cell has storage, and the slot is there or is declared by now. -/
def HasSlot (m : Memory) (env : Env) (slot : Nat) : Prop :=
  ∃ id, ancestor env 0 = .ok id ∧
    ∃ slots, m.slots id = .ok slots ∧ (slot < slots.size ∨ slot < m.declared id)

theorem HasSlot.writable (has : m.HasSlot env slot) : ∃ id, m.writable env slot 0 = .ok id := by
  obtain ⟨id, here, slots, storage, room⟩ := has
  refine ⟨id, ?_⟩
  rw [Memory.writable, here]
  simp only [Bind.bind, Except.bind, storage]
  split
  · rfl
  · next missing => exact if_pos (room.resolve_left missing)

/-- A write takes no slot away. -/
theorem HasSlot.later {offset depth : Nat} (has : m.HasSlot env slot)
    (written : m.write env offset depth value = .ok m₁) : m₁.HasSlot env slot := by
  obtain ⟨own, here, slots, storage, room⟩ := has
  obtain ⟨id, -, rfl⟩ := write_ok written
  have declared := m.declared_change id (stored (m.declared id) offset value) own
  by_cases same : own = id
  · subst same
    refine ⟨own, here, stored (m.declared own) offset value slots, ?_, ?_⟩
    · rw [slots_change, if_pos rfl, storage]
      rfl
    · rw [declared, size_stored]
      split <;> omega
  · refine ⟨own, here, slots, ?_, ?_⟩
    · rw [slots_change, if_neg same, storage]
    · rwa [declared]

/-- The slots of the innermost cell have these values now, and every other variable, wherever it is
seen from, is as before. -/
structure Binds (m m' : Memory) (env : Env) (bindings : List (Nat × Value)) : Prop where
  bound : ∀ binding ∈ bindings, m'.read env binding.1 0 = .ok binding.2
  others : ∀ seen offset depth,
    (∀ slot ∈ bindings.map Prod.fst, ¬SameVariable env slot 0 seen offset depth) →
      m'.read seen offset depth = m.read seen offset depth
  room : ∀ slot, m.HasSlot env slot → m'.HasSlot env slot

namespace Binds

variable {first second : List (Nat × Value)}

theorem nil (m : Memory) (env : Env) : m.Binds m env [] := ⟨nofun, fun _ _ _ _ => rfl, fun _ => id⟩

theorem write (written : m.write env slot 0 value = .ok m₁) : m.Binds m₁ env [(slot, value)] where
  bound binding member := by
    obtain rfl := List.mem_singleton.1 member
    obtain ⟨id, found, -⟩ := write_ok written
    have here := (writable_room found).1
    exact (read_write written env slot 0).1 ⟨rfl, id, here, here⟩
  others seen offset depth differ :=
    (read_write written seen offset depth).2 (differ slot (List.mem_singleton_self slot))
  room _ has := has.later written

theorem append (left : m.Binds m₁ env first) (right : m₁.Binds m₂ env second)
    (disjoint : ∀ slot ∈ first.map Prod.fst, slot ∉ second.map Prod.fst) :
    m.Binds m₂ env (first ++ second) where
  bound binding member := by
    rcases List.mem_append.1 member with member | member
    · have kept : m₂.read env binding.1 0 = m₁.read env binding.1 0 := by
        refine right.others env binding.1 0 fun slot own same => ?_
        exact disjoint binding.1 (List.mem_map_of_mem member) (same.1 ▸ own)
      rw [kept]
      exact left.bound binding member
    · exact right.bound binding member
  others seen offset depth differ := by
    simp only [List.map_append, List.mem_append] at differ
    rw [right.others seen offset depth fun slot own => differ slot (.inr own)]
    exact left.others seen offset depth fun slot own => differ slot (.inl own)
  room slot has := right.room slot (left.room slot has)

end Binds

end Memory

namespace Eval

variable {s : State} {env : Env}

theorem writeVariable_eq {offset depth : Nat} {value : Value} {m : Memory}
    (written : s.shared.memory.write env offset depth value = .ok m) :
    writeVariable env offset depth value s = .ok () { s with shared.memory := m } := by
  obtain ⟨id, found, done⟩ := Except.ok_of_bind written
  cases done
  simp only [writeVariable, Bind.bind, EStateM.bind, Eval.read, found]
  rfl

/-- One slot that is there can always be written. -/
theorem writeVariable_binds {slot : Nat} (value : Value) (has : s.shared.memory.HasSlot env slot) :
    ∃ m, writeVariable env slot 0 value s = .ok () { s with shared.memory := m } ∧
      s.shared.memory.Binds m env [(slot, value)] := by
  obtain ⟨id, found⟩ := has.writable
  have written : s.shared.memory.write env slot 0 value =
      .ok (s.shared.memory.put id slot value) := by
    rw [Memory.write, found]
    rfl
  exact ⟨_, writeVariable_eq written, .write written⟩

/-- What the slots get in turn, nil where there are too few values. -/
def slotBindings (values : Array Value) (start : Nat) : List Nat → List (Nat × Value)
  | [] => []
  | slot :: slots => (slot, values.getD start .nil) :: slotBindings values (start + 1) slots

theorem slotBindings_slots (values : Array Value) (start : Nat) (slots : List Nat) :
    (slotBindings values start slots).map Prod.fst = slots := by
  induction slots generalizing start with
  | nil => rfl
  | cons slot slots ih => rw [slotBindings, List.map_cons, ih]

theorem getElem?_slotBindings (values : Array Value) (start : Nat) (slots : List Nat) (i : Nat) :
    (slotBindings values start slots)[i]? =
      slots[i]?.map (·, values.getD (start + i) .nil) := by
  induction slots generalizing start i with
  | nil => rfl
  | cons slot slots ih =>
    cases i with
    | zero => rfl
    | succ i =>
      rw [slotBindings, List.getElem?_cons_succ, List.getElem?_cons_succ, ih, Nat.add_right_comm,
        Nat.add_assoc]

/-- By induction on the slots: a write leaves the others their slots, and leaves them alone. -/
theorem writeSlots_binds (values : Array Value) (start : Nat) {slots : List Nat}
    (distinct : slots.Nodup) (has : ∀ slot ∈ slots, s.shared.memory.HasSlot env slot) :
    ∃ m, writeSlots env values start slots s = .ok () { s with shared.memory := m } ∧
      s.shared.memory.Binds m env (slotBindings values start slots) := by
  induction slots generalizing s start with
  | nil => exact ⟨s.shared.memory, rfl, .nil _ env⟩
  | cons slot slots ih =>
    obtain ⟨fresh, distinct⟩ := List.nodup_cons.1 distinct
    obtain ⟨m₁, wrote, first⟩ := writeVariable_binds (values.getD start .nil) (has slot (.head _))
    obtain ⟨m₂, wrote', rest⟩ := ih (s := { s with shared.memory := m₁ }) (start + 1) distinct
      fun other member => first.room other (has other (.tail _ member))
    refine ⟨m₂, (bind_ok wrote).trans wrote', first.append rest fun other member => ?_⟩
    rw [slotBindings_slots, List.mem_singleton.1 member]
    exact fresh

end Eval

/-- All the slots that a closure's parameters take. -/
def ClosureParams.bound (params : ClosureParams) : List Nat := params.slots ++ params.rest.toList

theorem Eval.assign_binds {s : State} {env : Env} {params : ClosureParams} (value : Value)
    (isPacked : Bool) (spreads : params.strategy = .spread) (distinct : params.bound.Nodup)
    (has : ∀ slot ∈ params.bound, s.shared.memory.HasSlot env slot) :
    let values := spreadValues value isPacked
    ∃ m, assign env params value isPacked s = .ok () { s with shared.memory := m } ∧
      s.shared.memory.Binds m env (slotBindings values 0 params.slots ++
        params.rest.toList.map (·, .array (values.extract params.slots.length))) := by
  intro values
  obtain ⟨distinct, -, apart⟩ := List.nodup_append.1 distinct
  have own : ∀ slot ∈ params.slots, s.shared.memory.HasSlot env slot :=
    fun slot member => has slot (List.mem_append_left _ member)
  obtain ⟨m₁, wrote, first⟩ := writeSlots_binds values 0 distinct own
  simp only [assign, spreads]
  cases rest : params.rest with
  | none =>
    refine ⟨m₁, (bind_ok wrote).trans rfl, ?_⟩
    simpa using first
  | some slot =>
    have last : slot ∈ params.rest.toList := by simp [rest]
    obtain ⟨m₂, wrote', second⟩ := writeVariable_binds (s := { s with shared.memory := m₁ })
      (.array (values.extract params.slots.length))
      (first.room slot (has slot (List.mem_append_right _ last)))
    refine ⟨m₂, (bind_ok wrote).trans wrote', first.append second fun other member => ?_⟩
    rw [slotBindings_slots] at member
    exact fun listed => apart other member slot last (List.mem_singleton.1 listed)

/-- The first values, padded with nil to the number of places. -/
def Value.inPlaces (values : List Value) (places : Nat) : List Value :=
  (List.range places).map fun i => values.getD i .nil

/-- Without the padding, and with the values that found no place, these are all values. -/
theorem Value.inPlaces_append (values : List Value) (places : Nat) :
    (inPlaces values places).take (min places values.length) ++ values.drop places = values := by
  have kept : (inPlaces values places).take (min places values.length) = values.take places := by
    apply List.ext_getElem?
    intro i
    rw [List.getElem?_take, List.getElem?_take, inPlaces, List.getElem?_map]
    by_cases placed : i < places
    · by_cases given : i < values.length
      · rw [if_pos (by omega), if_pos placed]
        simp [placed, given]
      · rw [if_neg (by omega), if_pos placed, List.getElem?_eq_none (Nat.le_of_not_lt given)]
    · rw [if_neg (by omega), if_neg placed]
  rw [kept, List.take_append_drop]

/-- Values that are spread over slots can be read back: each parameter has the value in its place or
nil, and the rest parameter those that are left. Every other variable is as before, in the closure's
own scope, in those around it, and wherever else it is seen from. -/
theorem spread_lossless (s : State) (env : Env) (params : ClosureParams) (value : Value)
    (isPacked : Bool) (spreads : params.strategy = .spread) (distinct : params.bound.Nodup)
    (inRange : ∀ slot ∈ params.bound, s.shared.memory.HasSlot env slot) :
    let before := s.shared.memory
    let values := value.spread isPacked
    ∃ after : Memory,
      assign env params value isPacked s = .ok () { s with shared.memory := after } ∧
      (∀ i slot, params.slots[i]? = some slot →
        after.read env slot 0 = .ok (values.getD i .nil)) ∧
      (∀ rest, params.rest = some rest → ∃ (held : List Value) (items : Array Value),
        params.slots.map (after.read env · 0) = held.map .ok ∧
        after.read env rest 0 = .ok (.array items) ∧
        held.take (min params.slots.length values.length) ++ items.toList = values) ∧
      (∀ offset ∉ params.bound, after.read env offset 0 = before.read env offset 0) ∧
      (∀ offset depth, Memory.ancestor env depth ≠ Memory.ancestor env 0 →
        after.read env offset depth = before.read env offset depth) ∧
      ∀ seen offset depth,
        (∀ slot ∈ params.bound, ¬Memory.SameVariable env slot 0 seen offset depth) →
          after.read seen offset depth = before.read seen offset depth := by
  intro before values
  obtain ⟨after, assigned, binds⟩ := assign_binds value isPacked spreads distinct inRange
  have spread : (spreadValues value isPacked).toList = values := spreadValues_toList value isPacked
  have params_read (i slot : Nat) (own : params.slots[i]? = some slot) :
      after.read env slot 0 = .ok (values.getD i .nil) := by
    have placed : (slotBindings (spreadValues value isPacked) 0 params.slots)[i]? =
        some (slot, values.getD i .nil) := by
      rw [getElem?_slotBindings, own, ← spread]
      simp
    exact binds.bound _ (List.mem_append_left _ (List.mem_of_getElem? placed))
  have others (seen : Env) (offset depth : Nat)
      (differ : ∀ slot ∈ params.bound, ¬Memory.SameVariable env slot 0 seen offset depth) :
      after.read seen offset depth = before.read seen offset depth := by
    refine binds.others seen offset depth fun slot member => differ slot ?_
    simpa [ClosureParams.bound, slotBindings_slots] using member
  refine ⟨after, assigned, params_read, fun rest own => ?_, fun offset free => ?_,
    fun offset depth outside => ?_, others⟩
  · refine ⟨Value.inPlaces values params.slots.length,
      (spreadValues value isPacked).extract params.slots.length, ?_, ?_, ?_⟩
    · apply List.ext_getElem?
      intro i
      simp only [List.getElem?_map, Value.inPlaces]
      cases found : params.slots[i]? with
      | none => simp [List.getElem?_eq_none_iff.1 found]
      | some slot =>
        obtain ⟨inside, -⟩ := List.getElem?_eq_some_iff.1 found
        simp [params_read i slot found, inside]
    · exact binds.bound (rest, _) (List.mem_append_right _ (by simp [own]))
    · have left : ((spreadValues value isPacked).extract params.slots.length).toList =
          values.drop params.slots.length := by
        rw [← spread, Array.toList_extract, List.extract_eq_take_drop, List.take_of_length_le]
        simp
      rw [left]
      exact Value.inPlaces_append values params.slots.length
  · exact others env offset 0 fun slot member same => free (same.1 ▸ member)
  · refine others env offset depth fun slot _ same => outside ?_
    obtain ⟨-, id, here, there⟩ := same
    rw [here, there]

/-- The scope gained two variables after it was entered, so its cell grows on the way. The list that is
the only argument is spread, and the variable around the closure is left alone. -/
theorem spread_lossless_growing :
    let m : Memory := { statics := #[{ vars := ["a", "b", "rest"] }, { vars := ["x"] }],
                        cells := #[⟨1, some #[.int 7]⟩, ⟨0, some #[.nil]⟩] }
    let s : State := ⟨{ memory := m }, { id := 0, main := ⟨0, 0⟩, scopes := [[1, 0]],
                                         stack := .ofRoot { self := .nil } none }⟩
    let params : ClosureParams := { strategy := .spread, slots := [1, 0], rest := some 2 }
    let value : Value := .array #[.array #[.int 1, .array #[], .int 3]]
    value.spread true = [.int 1, .array #[], .int 3] ∧
    ∃ after : Memory, assign [1, 0] params value true s = .ok () { s with shared.memory := after } ∧
      after.read [1, 0] 1 0 = .ok (.int 1) ∧ after.read [1, 0] 0 0 = .ok (.array #[]) ∧
      after.read [1, 0] 0 1 = .ok (.int 7) := by
  intro m s params value
  have inRange : ∀ slot ∈ params.bound, m.HasSlot [1, 0] slot := by
    intro slot member
    have bound : slot < 3 := by
      simp [ClosureParams.bound, params] at member
      omega
    exact ⟨1, rfl, #[.nil], rfl, .inr bound⟩
  obtain ⟨after, assigned, placed, -, -, around, -⟩ :=
    spread_lossless s [1, 0] params value true rfl (by decide) inRange
  refine ⟨rfl, after, assigned, placed 0 1 rfl, placed 1 0 rfl, ?_⟩
  exact (around 0 1 nofun).trans rfl

end CallEngine
