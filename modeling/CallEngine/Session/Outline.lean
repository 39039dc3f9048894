import CallEngine.State
/-! One-line texts that outline the parts of an engine. -/
namespace CallEngine

/-- A record with its fields; `isPartial` says that some are left out. -/
def outlineRecord (name : String) (fields : List (String × String)) (isPartial : Bool) : String :=
  let shown := fields.map fun (field, text) => field ++ ": " ++ text
  name ++ " \x7b " ++ ", ".intercalate (shown ++ if isPartial then [".."] else []) ++ " \x7d"

def outlineOption : Option Nat → String
  | none => "None"
  | some n => s!"Some({n})"

def Arity.outline (arity : Arity) : String :=
  outlineRecord "Arity" [("required", toString arity.required),
    ("optional", toString arity.optional), ("rest", toString arity.rest)] false

def Class.outline (cls : Class) : String :=
  outlineRecord "RClass" [("name", ":" ++ cls.name), ("is_module", toString cls.isModule)] true

def Method.compiledOutline (arity : Arity) : String :=
  outlineRecord "CompiledMethod" [("arity", arity.outline)] true

def Config.outline (config : Config) : String :=
  outlineRecord "RuntimeConfig" [("compile_mode", config.mode.name),
    ("jit_threshold", toString config.threshold),
    ("jit_max", outlineOption config.compileLimit),
    ("max_call_depth", outlineOption config.depthLimit)] false

def CompileStats.outline (stats : CompileStats) : String :=
  outlineRecord "JitStats" [("compiled", toString stats.compiled),
    ("failed", toString stats.failed)] false

def Monitor.outline (monitor : Monitor) : String :=
  outlineRecord "EventHooks" [("count", toString monitor.hooks.length),
    ("active", toString monitor.isActive)] false

def Shared.outline (shared : Shared) : String :=
  outlineRecord "Runtime" [("config", shared.config.outline),
    ("hooks", shared.monitor.outline), ("jit", shared.stats.outline)] true

def Context.outline (context : Context) : String :=
  outlineRecord "ExecutionContext" [("depth", toString context.stack.depth),
    ("scopes", toString context.scopes.length), ("last_call", context.lastCall.name)] true

/-- A cell, with the cells around it inside. -/
def Memory.outline (memory : Memory) : Env → String
  | [] => "None"
  | id :: outer =>
    let cell := memory.cell id
    let slots := match cell.slots with
      | some slots => [("slots", "[" ++ ", ".intercalate (View.outlineAll
          (Value.viewItems {} slots)) ++ "]")]
      | none => []
    let parent := if outer.isEmpty then "None" else "Some(" ++ memory.outline outer ++ ")"
    outlineRecord "DynamicScope"
      ([("kind", (memory.static cell.scope).kind.name)] ++ slots ++ [("parent", parent)]) false

end CallEngine
