import CallEngine.Method
import CallEngine.Table
/-! Classes and modules, and the look-up of methods along a class's line of ancestors. -/
namespace CallEngine

structure Class where
  name : String
  isModule : Bool := false
  /-- Superclasses, nearest first. -/
  lineage : List ClassId := []
  methods : Table MethodId := {}
  /-- Methods of the class itself, not of its instances. -/
  singletons : Table MethodId := {}
deriving Inhabited

/-! The classes that every engine starts with. -/
namespace Core

def object : ClassId := 0
def moduleClass : ClassId := 1
def integer : ClassId := 2
def string : ClassId := 3
def array : ClassId := 4
def proc : ClassId := 5
def nilClass : ClassId := 6
def trueClass : ClassId := 7
def falseClass : ClassId := 8

/-- All others come directly under `object`. -/
def classes : List Class :=
  { name := "Object" } ::
    ["Module", "Integer", "String", "Array", "Proc", "NilClass", "TrueClass", "FalseClass"].map
      fun name => { name, lineage := [object] }

end Core

/-- All classes and methods, and the constants that name classes. -/
structure Library where
  classes : Array Class := #[]
  methods : Array Method := #[]
  constants : Table ClassId := {}
deriving Inhabited

namespace Library

def cls (library : Library) (id : ClassId) : Class := library.classes.getD id default

def method (library : Library) (id : MethodId) : Method := library.methods.getD id default

def addMethod (library : Library) (method : Method) : MethodId × Library :=
  (library.methods.size, { library with methods := library.methods.push method })

def setMethod (library : Library) (id : MethodId) (method : Method) : Library :=
  { library with methods := library.methods.setIfInBounds id method }

/-- The class first, then its superclasses. -/
def ancestors (library : Library) (id : ClassId) : List ClassId := id :: (library.cls id).lineage

def ownMethod (library : Library) (id : ClassId) (name : String) : Option MethodId :=
  (library.cls id).methods.get? name

def ownSingleton (library : Library) (id : ClassId) (name : String) : Option MethodId :=
  (library.cls id).singletons.get? name

/-- The definition nearest to the class. -/
def searchMethod (library : Library) (id : ClassId) (name : String) : Option MethodId :=
  (library.ancestors id).findSome? (library.ownMethod · name)

def searchSingleton (library : Library) (id : ClassId) (name : String) : Option MethodId :=
  (library.ancestors id).findSome? (library.ownSingleton · name)

/-- The nearest definition strictly above the class. -/
def searchAbove (library : Library) (id : ClassId) (name : String) : Option MethodId :=
  (library.cls id).lineage.findSome? (library.ownMethod · name)

def inherits (library : Library) (id other : ClassId) : Bool :=
  (library.ancestors id).contains other

def defineMethod (library : Library) (id : ClassId) (name : String) (method : MethodId) :
    Library :=
  { library with classes := library.classes.modify id fun c =>
      { c with methods := c.methods.insert name method } }

def defineSingleton (library : Library) (id : ClassId) (name : String) (method : MethodId) :
    Library :=
  { library with classes := library.classes.modify id fun c =>
      { c with singletons := c.singletons.insert name method } }

/-- The name becomes a constant, also if it was one before. -/
def register (library : Library) (cls : Class) : ClassId × Library :=
  let id := library.classes.size
  (id, { library with
    classes := library.classes.push cls
    constants := library.constants.insert cls.name id })

def defineClass (library : Library) (name : String) (superclass : ClassId) :
    ClassId × Library :=
  library.register { name, lineage := library.ancestors superclass }

def defineModule (library : Library) (name : String) : ClassId × Library :=
  library.register { name, isModule := true }

def constant (library : Library) (name : String) : Except EvalError ClassId :=
  match library.constants.get? name with
  | some id => .ok id
  | none => .error (.uninitializedConstant name)

/-- The class or module of that name, made if there is none. A superclass that is named for a
class that exists is not looked at. -/
def openClass (library : Library) (name : String) (superclass : Option String)
    (isModule : Bool) : Except EvalError (ClassId × Library) :=
  match library.constants.get? name with
  | some id =>
    if (library.cls id).isModule = isModule then .ok (id, library)
    else .error (.runtime (name ++ " is not a " ++ if isModule then "module" else "class"))
  | none =>
    if isModule then .ok (library.defineModule name)
    else match superclass with
      | none => .ok (library.defineClass name Core.object)
      | some parent => (library.constant parent).map (library.defineClass name)

def classOf : Value → ClassId
  | .nil => Core.nilClass
  | .bool true => Core.trueClass
  | .bool false => Core.falseClass
  | .int _ => Core.integer
  | .str _ => Core.string
  | .array _ => Core.array
  | .proc _ => Core.proc
  | .cls _ => Core.moduleClass
  | .object object => object.cls

/-- Methods of a class value itself come before those that every class value has. -/
def findMethod (library : Library) (receiver : Value) (name : String) : Option MethodId :=
  match receiver with
  | .cls id => library.searchSingleton id name <|> library.searchMethod Core.moduleClass name
  | other => library.searchMethod (classOf other) name

end Library

/-- A built-in method and the class that has it. -/
structure Core.Entry where
  cls : ClassId
  name : String
  visibility : Visibility
  config : CallConfig
  builtin : Builtin

def Core.methods : List Core.Entry :=
  [⟨object, "inspect", .pub, .frameOnly, .inspect⟩,
    ⟨object, "loop", .priv, .frameOnly, .loop⟩,
    ⟨object, "public", .priv, .inPlace, .setVisibility .pub⟩,
    ⟨object, "private", .priv, .inPlace, .setVisibility .priv⟩,
    ⟨object, "protected", .priv, .inPlace, .setVisibility .prot⟩,
    ⟨object, "module_function", .priv, .inPlace, .setVisibility .moduleFunction⟩,
    ⟨moduleClass, "new", .pub, .frameOnly, .new⟩,
    ⟨array, "each", .pub, .frameOnly, .each⟩,
    ⟨array, "size", .pub, .inPlace, .size⟩,
    ⟨integer, "times", .pub, .frameOnly, .times⟩,
    ⟨proc, "call", .pub, .frameOnly, .callClosure⟩,
    ⟨proc, "arity", .pub, .inPlace, .arity⟩,
    ⟨proc, "lambda?", .pub, .inPlace, .isLambda⟩]

end CallEngine
