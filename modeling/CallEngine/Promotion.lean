import CallEngine.Backend
import CallEngine.Config
/-! Promotion: calls of a method are counted until its tree is handed to the backend, once. -/
namespace CallEngine

abbrev MethodId := Nat

/-- Call counts are 32-bit words and stop at the last one. -/
def largestCallCount : Nat := UInt32.size - 1

structure Promotion where
  calls : Nat := 0
  /-- Set after a failed attempt; there is no second one. -/
  disabled : Bool := false
  code : Option Code := none
deriving Inhabited

def Promotion.counted (promotion : Promotion) : Promotion :=
  { promotion with calls := min (promotion.calls + 1) largestCallCount }

inductive PromotionState where
  | fresh
  | warm (calls : Nat)
  | promoted
deriving DecidableEq, Inhabited, Repr

def Promotion.state (promotion : Promotion) : PromotionState :=
  if promotion.code.isSome then .promoted
  else if promotion.calls = 0 then .fresh
  else .warm promotion.calls

/-- A backend request as it was answered. -/
structure CompileRecord where
  method : MethodId
  name : String
  arity : Int
  /-- Nothing if it succeeded. -/
  failure : Option String
deriving DecidableEq, Inhabited, Repr

structure CompileStats where
  compiled : Nat := 0
  failed : Nat := 0
  /-- Oldest first. -/
  requests : Array CompileRecord := #[]
deriving Inhabited

namespace CompileStats

def record (stats : CompileStats) (method : MethodId) (request : CompileRequest)
    (verdict : Verdict) : CompileStats :=
  let entry := CompileRecord.mk method request.name request.arity.number
  match verdict with
  | .compiled _ => { stats with
      compiled := stats.compiled + 1, requests := stats.requests.push (entry none) }
  | .refused error => { stats with
      failed := stats.failed + 1, requests := stats.requests.push (entry (some error.message)) }
  | .crashed => { stats with
      failed := stats.failed + 1, requests := stats.requests.push (entry (some "panic")) }

end CompileStats

namespace Promotion

/-- Whether the call that was just counted hands the body to the backend. -/
def isDue (promotion : Promotion) (config : Config) (stats : CompileStats) : Bool :=
  !promotion.disabled && config.mode.shouldCompile promotion.calls config.threshold &&
    (match config.compileLimit with
      | some limit => stats.compiled < limit
      | none => true)

def settle (promotion : Promotion) : Verdict → Promotion
  | .compiled code => { promotion with code := some code }
  | .refused _ | .crashed => { promotion with disabled := true }

/-- Counts a call of `method` and asks the backend when the call makes the body due. -/
def advance (promotion : Promotion) (config : Config) (backend : Backend) (method : MethodId)
    (request : CompileRequest) (stats : CompileStats) : Promotion × CompileStats :=
  if promotion.code.isSome then (promotion, stats)
  else
    let promotion := promotion.counted
    if promotion.isDue config stats then
      let verdict := backend stats.requests.size request
      (promotion.settle verdict, stats.record method request verdict)
    else (promotion, stats)

end Promotion

end CallEngine
