import CallEngine.Text.Blank
import CallEngine.Text.Unsigned
/-! When hot methods are compiled, and the limits of a run. -/
namespace CallEngine

inductive CompileMode where
  | off
  /-- Compile once the call count reaches the threshold. -/
  | jit
  /-- Compile on the first call. -/
  | force
deriving DecidableEq, Inhabited, Repr

namespace CompileMode

def shouldCompile : CompileMode → (calls threshold : Nat) → Bool
  | off, _, _ => false
  | jit, calls, threshold => threshold ≤ calls
  | force, calls, _ => 1 ≤ calls

/-- Letter case of ASCII letters and blanks at both ends do not matter. -/
def parse? (text : String) : Option CompileMode :=
  let word := String.ofList ((Text.trim text.toList).map Char.toLower)
  if word = "off" ∨ word = "none" then some off
  else if word = "jit" then some jit
  else if word = "force" then some force
  else none

def parseFailure (text : String) : String :=
  s!"unknown compile mode `{text}` (expected off, jit or force)"

def name : CompileMode → String
  | off => "Off"
  | jit => "Jit"
  | force => "Force"

end CompileMode

structure Config where
  mode : CompileMode := .jit
  threshold : Nat := 50
  /-- No method is compiled once this many have been. -/
  compileLimit : Option Nat := none
  /-- How many frames a context may hold. -/
  depthLimit : Option Nat := none
deriving DecidableEq, Inhabited, Repr

namespace Config

/-- The setting that `lookup` gives for `key`; a text that is no count below `bound` is ignored. -/
def setting? (lookup : String → Option String) (bound : Nat) (key : String) : Option Nat :=
  (lookup key).bind fun text => Text.unsigned? bound (Text.trim text.toList)

/-- Settings that are absent or unreadable keep their value. -/
def override (config : Config) (lookup : String → Option String) : Config where
  mode := ((lookup "GARNET_COMPILE_MODE").bind CompileMode.parse?).getD config.mode
  threshold := (setting? lookup UInt32.size "GARNET_JIT_THRESHOLD").getD config.threshold
  compileLimit := setting? lookup UInt64.size "GARNET_JIT_MAX" <|> config.compileLimit
  depthLimit := setting? lookup UInt64.size "GARNET_MAX_CALL_DEPTH" <|> config.depthLimit

/-- The configuration after each of several rounds of settings. -/
def rounds (config : Config) : List (String → Option String) → List Config
  | [] => []
  | lookup :: rest =>
    let config := config.override lookup
    config :: rounds config rest

end Config

end CallEngine
