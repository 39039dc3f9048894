/-! What watches a run: hooks on calls and returns, what they were told, and requests to stop. -/
namespace CallEngine

inductive EventKind where
  | call | ret | builtinCall | builtinReturn
deriving DecidableEq, Inhabited, Repr

namespace EventKind

def all : List EventKind := [call, ret, builtinCall, builtinReturn]

def name : EventKind → String
  | call => "Call"
  | ret => "Return"
  | builtinCall => "CCall"
  | builtinReturn => "CReturn"

end EventKind

structure Event where
  kind : EventKind
  name : String
  className : Option String
  /-- How many frames there were. -/
  depth : Nat
deriving DecidableEq, Inhabited, Repr

abbrev ContextId := Nat

/-- A listener. It always returns: it may ask a context to stop or remove itself, and it neither fails nor
calls back into the engine. -/
structure Hook where
  id : Nat
  mask : List EventKind := EventKind.all
  /-- Hooks that came with the engine stay. -/
  removable : Bool := true
  /-- The count of events at which the hook asks its context to stop. -/
  interruptAt : Option Nat := none
  /-- The count of events at which the hook removes itself. -/
  removeAt : Option Nat := none
  context : ContextId := 0
  seen : Nat := 0
deriving DecidableEq, Inhabited, Repr

namespace Hook

def wants (hook : Hook) (event : Event) : Bool := hook.mask.contains event.kind

/-- Whether the next event it is told of makes the hook ask its context to stop. -/
def asks (hook : Hook) : Bool := hook.interruptAt = some (hook.seen + 1)

/-- Whether the next event it is told of makes the hook remove itself. -/
def leaves (hook : Hook) : Bool := hook.removeAt = some (hook.seen + 1)

/-- The hook after an event, if it stays. -/
def after (hook : Hook) (event : Event) : Option Hook :=
  if hook.wants event then
    if hook.leaves then none else some { hook with seen := hook.seen + 1 }
  else some hook

end Hook

structure Monitor where
  /-- In the order of registration. -/
  hooks : List Hook := []
  nextId : Nat := 0
  /-- Which hook was told what, oldest first. -/
  deliveries : Array (Nat × Event) := #[]
  /-- Contexts that were asked to stop and have not noticed yet. -/
  pending : List ContextId := []
deriving Inhabited

namespace Monitor

def isActive (monitor : Monitor) : Bool := !monitor.hooks.isEmpty

/-- The hook takes the next number, whatever number it came with. -/
def add (monitor : Monitor) (hook : Hook) : Monitor :=
  { monitor with
    hooks := monitor.hooks ++ [{ hook with id := monitor.nextId }]
    nextId := monitor.nextId + 1 }

def drop (monitor : Monitor) (id : Nat) : Monitor :=
  { monitor with hooks := monitor.hooks.filter (·.id != id) }

def canRemove (monitor : Monitor) (id : Nat) : Bool :=
  monitor.hooks.any fun hook => hook.id == id && hook.removable

def remove (monitor : Monitor) (id : Nat) : Monitor :=
  if monitor.canRemove id then monitor.drop id else monitor

def interrupt (monitor : Monitor) (context : ContextId) : Monitor :=
  if monitor.pending.contains context then monitor
  else { monitor with pending := context :: monitor.pending }

def isPending (monitor : Monitor) (context : ContextId) : Bool :=
  monitor.pending.contains context

def settle (monitor : Monitor) (context : ContextId) : Monitor :=
  { monitor with pending := monitor.pending.filter (· != context) }

/-- Tells the hooks that want the event, in the order of registration. What a hook does about it
changes no other hook. -/
def fire (monitor : Monitor) (event : Event) : Monitor :=
  let told := monitor.hooks.filter (·.wants event)
  let asking := told.filter (·.asks)
  let informed := { monitor with
    deliveries := told.foldl (fun log hook => log.push (hook.id, event)) monitor.deliveries
    hooks := monitor.hooks.filterMap (·.after event) }
  asking.foldl (fun monitor hook => monitor.interrupt hook.context) informed

end Monitor

end CallEngine
