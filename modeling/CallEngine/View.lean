import CallEngine.Arity
import CallEngine.Text.Quoted
import CallEngine.Value
/-! Values as a reader sees them: identities replaced by what they stand for. -/
namespace CallEngine

inductive ClosureKind where
  /-- A literal attached to a call. -/
  | normal
  | proc
  /-- Strict about its arity; return and break leave it. -/
  | lambda
deriving DecidableEq, Inhabited, Repr

def ClosureKind.name : ClosureKind → String
  | normal => "Normal"
  | proc => "Proc"
  | lambda => "Lambda"

structure ClosureView where
  kind : ClosureKind
  arity : Arity
  /-- A method that was made a closure. -/
  isMethod : Bool
deriving DecidableEq, Inhabited

structure ClassView where
  name : String
  isModule : Bool
deriving DecidableEq, Inhabited

inductive View where
  | nil
  | bool (value : Bool)
  | int (value : Int64)
  | str (value : String)
  | array (items : List View)
  | proc (closure : ClosureView)
  | cls (cls : ClassView)
  | object (className : String) (isMain : Bool)
deriving Inhabited

/-- What the identities in a value stand for. -/
structure Directory where
  closure : ClosureId → ClosureView := fun _ => default
  cls : ClassId → ClassView := fun _ => default
  isMain : Object → Bool := fun _ => false

mutual

def Value.view (directory : Directory) : Value → View
  | .nil => .nil
  | .bool b => .bool b
  | .int n => .int n
  | .str s => .str s
  | .array items => .array (viewItems directory items)
  | .proc c => .proc (directory.closure c)
  | .cls c => .cls (directory.cls c)
  | .object o => .object (directory.cls o.cls).name (directory.isMain o)

def Value.viewItems (directory : Directory) : Array Value → List View
  | ⟨items⟩ => viewAll directory items

def Value.viewAll (directory : Directory) : List Value → List View
  | [] => []
  | value :: rest => value.view directory :: viewAll directory rest

end

namespace View

mutual

/-- The text for a developer. -/
def inspect : View → String
  | nil => "nil"
  | bool b => toString b
  | int n => toString n.toInt
  | str s => Text.quoted s
  | array items => "[" ++ ", ".intercalate (inspectAll items) ++ "]"
  | proc c => if c.kind = .lambda then "#<Proc (lambda)>" else "#<Proc>"
  | cls c => c.name
  | object className _ => "#<" ++ className ++ ">"

def inspectAll : List View → List String
  | [] => []
  | view :: rest => inspect view :: inspectAll rest

end

/-- The text for a user. -/
def text : View → String
  | nil => ""
  | str s => s
  | other => other.inspect

mutual

/-- The text that names the kind of every value in it. -/
def outline : View → String
  | nil => "Nil"
  | bool b => s!"Bool({b})"
  | int n => s!"Int({n.toInt})"
  | str s => s!"Str({Text.quoted s})"
  | array items => "Array([" ++ ", ".intercalate (outlineAll items) ++ "])"
  | proc _ => "Proc"
  | cls c => s!"Class({c.name})"
  | object className _ => s!"Object({className})"

def outlineAll : List View → List String
  | [] => []
  | view :: rest => outline view :: outlineAll rest

end

end View

namespace Value

/-- The view of a value that holds no identities. -/
def plainView (value : Value) : View := value.view {}

/-- Depends on the value itself only, not on what a list holds. -/
def typeName (directory : Directory) : Value → String
  | nil => "NilClass"
  | bool true => "TrueClass"
  | bool false => "FalseClass"
  | int _ => "Integer"
  | str _ => "String"
  | array _ => "Array"
  | proc _ => "Proc"
  | cls c => if (directory.cls c).isModule then "Module" else "Class"
  | object o => (directory.cls o.cls).name

def describe (directory : Directory) (value : Value) : String :=
  (value.view directory).inspect ++ ":" ++ value.typeName directory

end Value

end CallEngine
