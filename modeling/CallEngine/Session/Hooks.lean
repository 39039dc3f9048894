import CallEngine.Session.Outline
/-! Sessions on a monitor alone. -/
namespace CallEngine.Hooks

inductive Step where
  | add (mask : List EventKind)
  | remove (id : Nat)
  | fire (kind : EventKind)
  | outline

inductive Answer where
  | id (id : Nat)
  | flag (flag : Bool)
  /-- The hooks that were told, in order. -/
  | told (ids : List Nat)
  | text (text : String)

structure Reply where
  answer : Answer
  isActive : Bool

def perform (monitor : Monitor) : Step → Answer × Monitor
  | .add mask => (.id monitor.nextId, monitor.add { id := 0, mask })
  | .remove id => (.flag (monitor.canRemove id), monitor.remove id)
  | .fire kind =>
    let after := monitor.fire { kind, name := "", className := none, depth := 0 }
    (.told ((after.deliveries.extract monitor.deliveries.size after.deliveries.size).toList.map
      (·.1)), after)
  | .outline => (.text monitor.outline, monitor)

def run (monitor : Monitor) : List Step → List Reply
  | [] => []
  | first :: rest =>
    let (answer, monitor) := perform monitor first
    ⟨answer, monitor.isActive⟩ :: run monitor rest

end CallEngine.Hooks
