import CallEngine.Session.Inspect
import CallEngine.Session.Operand
/-! Carrying out commands in a context. -/
namespace CallEngine.Session

/-- Defines a method by hand, with a tree or with code. -/
def defineBody (cls : ClassId) (decl : MethodDecl) (body : MethodBody)
    (visibility : Visibility) (config : Option CallConfig) (isSingleton : Bool) : Eval Info := do
  let id ← Eval.addMethod fun target =>
    ⟨cls, visibility, config.getD .frameAndScope, target, body⟩
  if isSingleton then Eval.bindSingleton cls decl.name id else Eval.bindMethod cls decl.name id
  return .defined

def define (cls : String) (decl : MethodDecl) (visibility : Visibility)
    (config : Option CallConfig) (isSingleton isCompiled : Bool) : Eval Info := do
  let cls ← classNamed cls
  let definition ← Engine.resolve decl.resolve
  if isCompiled then
    match Backend.compile decl.name definition.body with
    | .ok code =>
      defineBody cls decl (.compiled definition.scope definition.params code) visibility config
        isSingleton
    | .error error => return .compileError error.message
  else defineBody cls decl (.interpreted definition {}) visibility config isSingleton

def copyMethod (id : MethodId) (toClass toName : String) (keepsOwner : Bool)
    (visibility : Option Visibility) (config : Option CallConfig) (toSingleton : Bool) :
    Eval Info := do
  let cls ← classNamed toClass
  let copy ← Eval.copyMethod id fun m =>
    { m with
      owner := if keepsOwner then m.owner else cls
      visibility := visibility.getD m.visibility
      config := config.getD m.config }
  if toSingleton then Eval.bindSingleton cls toName copy else Eval.bindMethod cls toName copy
  return .copied ((← Eval.method copy).target ≠ (← Eval.method id).target)

/-- What can be seen inside an entered body, which is then run if there is one. -/
def lookAround (fuel : Nat) (config : CallConfig) (target : Option Target)
    (body : Option Node) : Eval EntryView := do
  let depth ← Eval.read (·.context.stack.depth)
  let frame ← viewFrame (← Eval.currentFrame)
  let env ← Eval.currentEnv
  let hasVariables ← Eval.read (·.shared.memory.hasVariables env)
  let active ← targetActive target
  let backtrace ← Eval.read (·.context.stack.backtrace)
  let ending ← match body with
    | none => pure none
    | some node => do
      let outcome ← Eval.observe (Engine.evalNode fuel node)
      let directory ← Eval.read (·.directory)
      pure (some (Ending.ofOutcome directory (fun _ => .other) outcome))
  return { config, depth, frame, hasVariables, targetActive := active, backtrace,
           body := ending, targetActiveAfter := none }

def freshTarget : Eval Target := modifyGet fun s =>
  let (target, shared) := s.shared.freshTarget
  (target, { s with shared })

def Entry.makeScope (entry : Entry) : Eval (Option StaticId) :=
  match entry.vars with
  | none => pure none
  | some vars => some <$> Engine.resolve (Resolver.enter { vars })

def Entry.makeBody (entry : Entry) : Eval (Option Node) :=
  match entry.body with
  | none => pure none
  | some source => some <$> resolveAlone source

def Entry.makeTarget (entry : Entry) : Eval (Option Target) :=
  if entry.hasTarget then some <$> freshTarget else pure none

/-- Enters a body by hand and looks around inside. -/
def enter (fuel : Nat) (names : Names) (entry : Entry) : Eval Info := do
  let self ← entry.self.value names
  let owner ← classNamed? entry.owner
  let block ← names.closure? entry.block
  let scope ← entry.makeScope
  let body ← entry.makeBody
  let target ← entry.makeTarget
  let call : Invocation :=
    { self, owner, name := entry.name, arity := entry.arity, argCount := entry.argCount, block,
      scope, target, isBuiltin := entry.isBuiltin }
  let inside ← Eval.entering entry.config call (lookAround fuel entry.config target body)
  return .entry { inside with targetActiveAfter := ← targetActive target }

/-- The scope of that name, if there is one, or a new one. -/
def Names.scope (names : Names) (vars : List String) (scope : Option String) : Resolver StaticId :=
  match scope.bind names.scopes.get? with
  | some id => pure id
  | none => Resolver.enter { vars }

/-- Gives a body its scope. -/
def resolveIn (names : Names) (body : Source) (vars : List String) (scope : Option String) :
    Resolver (StaticId × Node) := do
  let id ← names.scope vars scope
  return (id, ← body.resolve id)

/-- Runs a body at top level. -/
def runSource (fuel : Nat) (names : Names) (body : Source) (vars : List String)
    (scope : Option String) : Eval Value := do
  let (id, node) ← Engine.resolve (resolveIn names body vars scope)
  Engine.runToplevel fuel id node

def declare (names : Names) (scope name : String) : Eval Info := do
  let id := (names.scopes.get? scope).getD 0
  modify fun s => { s with shared.memory := s.shared.memory.declare id name }
  Eval.read fun s => .offset ((s.shared.memory.static id).vars.idxOf name)

def setCaptured (closure : ClosureId) (offset depth : Nat) (value : Value) : Eval Info := do
  let env := (← Eval.closure closure).binding.env
  Eval.writeVariable env offset depth value
  return .absent

def defineClass (name : String) (superclass : Option ClassId) : Eval Value := modifyGet fun s =>
  let (id, library) := s.shared.library.defineClass name (superclass.getD Core.object)
  (.cls id, { s with shared.library := library })

def defineModule (name : String) : Eval Value := modifyGet fun s =>
  let (id, library) := s.shared.library.defineModule name
  (.cls id, { s with shared.library := library })

def addHook (hook : Hook) : Eval Info := modifyGet fun s =>
  let monitor := s.shared.monitor.add { hook with context := s.context.id }
  (.hookAdded s.shared.monitor.nextId monitor.isActive, { s with shared.monitor := monitor })

def removeHook (id : Nat) : Eval Info := modifyGet fun s =>
  let monitor := s.shared.monitor.remove id
  (.hookRemoved (s.shared.monitor.canRemove id) monitor.isActive,
    { s with shared.monitor := monitor })

/-- What a step comes to when nothing stops it. -/
inductive Finding where
  | value (value : Value)
  | info (info : Info)

def give (body : Eval Value) : Eval Finding := return .value (← body)

def report (body : Eval Info) : Eval Finding := return .info (← body)

/-- The method that is meant, or the report that there is none. -/
def withMethod (selector : Selector) (body : MethodId → Eval Finding) : Eval Finding := do
  match ← selector.find with
  | some id => body id
  | none => return .info .absent

def perform (fuel : Nat) (names : Names) : Command → Eval Finding
  | .run body vars scope => give (runSource fuel names body vars scope)
  | .declare scope name => report (declare names scope name)
  | .eval body => give do Engine.evalNode fuel (← resolveAlone body)
  | .send receiver name args => give do
    let receiver ← receiver.value names
    Engine.send fuel receiver name (← Operand.values names args)
  | .dispatch receiver name args block type => give do
    let receiver ← receiver.value names
    let args ← Operand.values names args
    Engine.dispatch fuel receiver name args (← resolveBlock names block) type
  | .invoke selector receiver args block callName => do
    let receiver ← receiver.value names
    let args ← Operand.values names args
    let block ← names.closure? block
    withMethod selector fun id =>
      give (Engine.invoke fuel id ⟨receiver, callName.getD selector.name, args, block⟩)
  | .method selector => withMethod selector fun id => report do return .method (← viewMethod id)
  | .define cls decl visibility config isSingleton isCompiled =>
    report (define cls decl visibility config isSingleton isCompiled)
  | .copyMethod selector toClass toName keepsOwner visibility config toSingleton =>
    withMethod selector fun id =>
      report (copyMethod id toClass toName keepsOwner visibility config toSingleton)
  | .makeClosure literal kind => give do Eval.makeProc (← resolveLiteral literal) kind
  | .makeMethodClosure selector callName => withMethod selector fun id => give do
    return .proc (← Eval.makeClosure (.method id (callName.getD selector.name)) .lambda)
  | .callClosure closure args => give do
    let closure ← names.closure closure
    Engine.callClosure fuel closure (← Operand.values names args)
  | .yield closure value self cls isPacked => give do
    let closure ← names.closure closure
    let value ← value.value names
    let self ← Operand.value? names self
    Engine.yield fuel closure { value, self, cls := ← classNamed? cls, isPacked }
  | .cloneClosure closure => give do
    return .proc (← Engine.cloneClosure (← names.closure closure))
  | .closure closure => report do return .closure (← viewClosure (← names.closure closure))
  | .setCaptured closure offset depth value => report do
    let closure ← names.closure closure
    setCaptured closure offset depth (← value.value names)
  | .sameClosure left right => report do
    let left ← names.closure left
    let right ← names.closure right
    return .sameness (left == right)
      ((← Eval.closure left).target = (← Eval.closure right).target)
  | .defineClass name superclass => give do defineClass name (← classNamed? superclass)
  | .defineModule name => give (defineModule name)
  | .openClass name superclass isModule => give do
    return .cls (← Eval.openClass name superclass isModule)
  | .cls name => report do viewClass (← classNamed name)
  | .inherits cls ancestor => report do
    let cls ← classNamed cls
    let ancestor ← classNamed ancestor
    Eval.read fun s => .inherits (s.shared.library.inherits cls ancestor)
  | .classOf value => give do return .cls (Library.classOf (← value.value names))
  | .describe value => report do return .description (← describe (← value.value names))
  | .binary op left right => give do
    let left ← left.value names
    Eval.applyBinary op left (← right.value names)
  | .globals wanted => give do return .array (← wanted.mapM Eval.global).toArray
  | .setGlobal name value => report do
    Eval.setGlobal name (← value.value names)
    return .absent
  | .interrupt => report do
    modify fun s => { s with shared.monitor := s.shared.monitor.interrupt s.context.id }
    return .absent
  | .poll => give do
    Eval.poll
    return .nil
  | .frame => report do return .frame (← viewFrame (← Eval.currentFrame))
  | .outline => report (Eval.read fun s => .outlines s.context.outline s.shared.outline)
  | .addHook hook => report (addHook hook)
  | .removeHook id => report (removeHook id)
  | .enter entry => report (enter fuel names entry)

end CallEngine.Session
