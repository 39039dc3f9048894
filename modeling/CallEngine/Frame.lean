import CallEngine.Fault
import CallEngine.Signal
/-! Call frames and the stack they form. -/
namespace CallEngine

/-- Who may call a method. A frame holds the visibility of what is defined under it. -/
inductive Visibility where
  | pub
  | prot
  | priv
  /-- A definition gives a private method and a public one on the module itself. -/
  | moduleFunction
deriving DecidableEq, Inhabited, Repr

def Visibility.name : Visibility → String
  | pub => "Public"
  | prot => "Protected"
  | priv => "Private"
  | moduleFunction => "ModuleFunction"

structure Frame where
  self : Value
  /-- The class whose method runs. -/
  cls : Option ClassId := none
  visibility : Visibility := .pub
  name : Option String := none
  block : Option ClosureId := none
  /-- What a return under this frame is aimed at. -/
  jumpTarget : Option Target := none
  /-- Set on the frame that catches returns aimed at it. -/
  activation : Option Target := none
deriving DecidableEq, Inhabited

/-- A copy aims returns at the same method but catches none. -/
def Frame.duplicate (frame : Frame) : Frame := { frame with activation := none }

/-- Frames, innermost first, and how many there may be. -/
structure FrameStack where
  frames : List Frame
  /-- Kept beside the frames so that a push need not count them. -/
  depth : Nat
  limit : Option Nat
  depth_eq : depth = frames.length
deriving DecidableEq

namespace FrameStack

attribute [simp] depth_eq

def empty (limit : Option Nat) : FrameStack := ⟨[], 0, limit, rfl⟩

instance : Inhabited FrameStack := ⟨empty none⟩

/-- A stack is its frames and its limit. -/
theorem eq_of_frames {a b : FrameStack} (frames : a.frames = b.frames) (limit : a.limit = b.limit) :
    a = b := by
  cases a
  cases b
  simp_all

/-- The root counts towards the limit but is never refused. -/
def ofRoot (root : Frame) (limit : Option Nat) : FrameStack := ⟨[root], 1, limit, rfl⟩

def add (stack : FrameStack) (frame : Frame) : FrameStack where
  frames := frame :: stack.frames
  depth := stack.depth + 1
  limit := stack.limit
  depth_eq := by simp

/-- Without the innermost frame, if there is one. -/
def drop (stack : FrameStack) : FrameStack where
  frames := stack.frames.tail
  depth := stack.depth - 1
  limit := stack.limit
  depth_eq := by simp

/-- With the innermost frame changed, if there is one. -/
def modifyTop (stack : FrameStack) (change : Frame → Frame) : FrameStack where
  frames := stack.frames.modifyHead change
  depth := stack.depth
  limit := stack.limit
  depth_eq := by simp

def push (stack : FrameStack) (frame : Frame) : Except EvalError FrameStack :=
  match stack.limit with
  | some limit =>
    if limit ≤ stack.depth then .error (.stackOverflow limit) else .ok (stack.add frame)
  | none => .ok (stack.add frame)

def pop (stack : FrameStack) : Except Fault (Frame × FrameStack) :=
  match stack.frames with
  | frame :: _ => .ok (frame, stack.drop)
  | [] => .error .popOnEmptyStack

def current (stack : FrameStack) : Except Fault Frame :=
  match stack.frames with
  | frame :: _ => .ok frame
  | [] => .error .emptyStack

def setVisibility (stack : FrameStack) (visibility : Visibility) : Except Fault FrameStack :=
  match stack.frames with
  | _ :: _ => .ok (stack.modifyTop fun frame => { frame with visibility })
  | [] => .error .emptyStack

/-- Whether a frame that catches returns aimed at `target` is on the stack. -/
def isActive (stack : FrameStack) (target : Target) : Bool :=
  stack.frames.any (·.activation = some target)

def backtrace (stack : FrameStack) : List String := stack.frames.filterMap (·.name)

end FrameStack

/-- An error that says nowhere yet where it surfaced says so now. -/
def Outcome.traced (stack : FrameStack) : Outcome → Outcome
  | .error (.error e) =>
    if e.backtrace.isEmpty then .error (.error { e with backtrace := stack.backtrace })
    else .error (.error e)
  | other => other

end CallEngine
