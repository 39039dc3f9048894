import CallEngine.Proofs.ArgumentBinding
import CallEngine.Proofs.SuperCalls
/-! What a call of super resends where the rest parameter has no slot.

The slot after the positional parameters belongs to a variable of the method's own then, if there is
one. Resending takes it for a rest parameter's all the same, so a list in it is resent too. -/
namespace CallEngine
open Eval

namespace Memory

variable {m : Memory} {params : Params Node} {id : CellId} {inner outer : Env}

/-- The values of the required and the optional parameters. -/
def positionalValues (m : Memory) (id : CellId) (params : Params Node) : List Value :=
  (m.slotsOf id).toList.take params.positional

/-- The slot after the positional parameters holds no list. -/
def NoListAfter (m : Memory) (id : CellId) (params : Params Node) : Prop :=
  ∀ items, (m.slotsOf id)[params.positional]? ≠ some (.array items)

theorem length_positionalValues (cell : m.MethodCell id params) :
    (m.positionalValues id params).length = params.positional := by
  have room : params.positional ≤ (m.slotsOf id).size :=
    Nat.le_trans (Nat.le_add_right _ _) cell.room
  rw [positionalValues, List.length_take_of_le]
  simpa using room

theorem MethodCell.arguments_positional (cell : m.MethodCell id params)
    (noList : m.NoListAfter id params) (outer : Env) :
    m.arguments (id :: outer) = m.positionalValues id params := by
  rw [cell.arguments, positionalValues]
  split
  · next items found => exact absurd found (noList items)
  · exact List.append_nil _

theorem MethodCell.arguments_list (cell : m.MethodCell id params) (rest : params.rest ≠ .absent)
    {items : Array Value} (list : (m.slotsOf id)[params.positional]? = some (.array items))
    (outer : Env) :
    m.arguments (id :: outer) = m.positionalValues id params ++ items.toList := by
  rw [cell.arguments, positionalValues, list]
  simp [rest]

end Memory

/-- A method with an anonymous rest parameter, and the closures in it, resend the positional parameters
and nothing else unless the variable after them holds a list; they resend its items too if it
does. -/
theorem super_resends_positional {params : Params Node} (anonymous : params.rest = .anonymous)
    {s : State} {id : CellId} {inner outer : Env} (cell : s.shared.memory.MethodCell id params)
    (closures : ∀ closure ∈ inner,
      (s.shared.memory.static (s.shared.memory.cell closure).scope).kind = .closure) :
    let positional := s.shared.memory.positionalValues id params
    positional.length = params.positional ∧
    (s.shared.memory.NoListAfter id params →
      s.shared.memory.arguments (inner ++ id :: outer) = positional ∧
      ∀ frame owner name more ask, s.context.stack.current = .ok frame → frame.Under owner name →
        s.context.scopes = (inner ++ id :: outer) :: more →
        superCall ask s = match s.shared.library.searchAbove owner name with
          | none => .error (.signal (.error (.noSuperMethod name))) s
          | some above => ask (.invoke above ⟨frame.self, name, positional, frame.block⟩)
              { s with context.lastCall := .super }) ∧
    ∀ items, (s.shared.memory.slotsOf id)[params.positional]? = some (.array items) →
      s.shared.memory.arguments (inner ++ id :: outer) = positional ++ items.toList := by
  intro positional
  refine ⟨Memory.length_positionalValues cell, fun noList => ?_, fun items list => ?_⟩
  · have resent : s.shared.memory.arguments (inner ++ id :: outer) = positional :=
      (Memory.arguments_closures closures _).trans (cell.arguments_positional noList outer)
    refine ⟨resent, fun frame owner name more ask current under scopes => ?_⟩
    have asked := superCall_under current under scopes ask
    rw [resent] at asked
    exact asked
  · have present : params.rest ≠ .absent := anonymous ▸ nofun
    exact (Memory.arguments_closures closures _).trans (cell.arguments_list present list outer)

/-- One required parameter and an anonymous rest parameter. -/
def dropsRest : Params Node := { required := 1, rest := .anonymous }

/-- In a method of class 1 with these parameters and a variable that is nil. -/
def insideDropsRest : State :=
  let frame : Frame := { self := .object ⟨1, 1⟩, cls := some 1, name := some "m" }
  { shared.library := .points
    shared.memory := (({} : Memory).addStatic
      { vars := ["x", "l"], layout := dropsRest.arity }).2.allocate 0 [] |>.2
    context := { id := 0, stack := .ofRoot frame none, scopes := [[0]], main := default } }

theorem super_resends_positional_nil :
    ∃ s, superCall (fun
      | .invoke _ call => pure (.array call.args.toArray)
      | .yield .. => pure .nil) insideDropsRest = .ok (.array #[.nil]) s := by
  have cell : insideDropsRest.shared.memory.MethodCell 0 dropsRest :=
    ⟨by decide, by decide, by decide, by decide⟩
  obtain ⟨-, noList, -⟩ :=
    @super_resends_positional dropsRest rfl insideDropsRest 0 [] [] cell nofun
  have isNil : (insideDropsRest.shared.memory.slotsOf 0)[dropsRest.positional]? = some .nil := rfl
  obtain ⟨-, resends⟩ := noList fun items list => nomatch isNil.symm.trans list
  let call : Call := ⟨.object ⟨1, 1⟩, "m", [], none⟩
  let method : Method := ⟨1, .pub, .frameOnly, ⟨0⟩, .builtin .loop⟩
  have under : Frame.Under 1 "m" { self := .object ⟨1, 1⟩, cls := some 1, name := some "m" } :=
    @Frame.Under.activation 1 "m" method call _ rfl rfl (List.mem_singleton.mpr rfl) rfl
  exact ⟨_, resends _ 1 "m" [] _ rfl under rfl⟩

/-- `B#m` has one parameter and an anonymous rest parameter, and a variable that holds two items. What it
sends to `A#m` with the one argument that it got are three. -/
theorem super_resends_a_variable :
    let session := Session.start {} Backend.lowering true [] 1 1
    let memory : Memory :=
      { session.shared.memory with statics :=
          #[{}, { vars := ["all"], layout := ⟨0, 0, true⟩ },
            { vars := ["x", "l"], layout := dropsRest.arity }] }
    let s : State := ⟨{ session.shared with memory }, session.contexts.getD 0 default⟩
    let program : Node := .seq
      [.classBody "A" none false 0 (.define "m" 1 { rest := .named 0 }
        (.call (some (.localGet 0 0)) "size" [] .absent)),
      .classBody "B" (some "A") false 0 (.define "m" 2 dropsRest
        (.seq [.localSet 1 0 (.array [.int 7, .int 8]), .superCall])),
      .call (some (.call (some (.constant "B")) "new" [] .absent)) "m" [.int 1] .absent]
    ∃ s', Engine.toplevel 9 0 program s = .ok (.int 3) s' := by
  intro session memory s program
  exact of_finalInt? (by decide +kernel)

end CallEngine
