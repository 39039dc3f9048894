import CallEngine.Session.Reply
/-! Sessions on a frame stack alone. Targets are named; equal names are the same target. -/
namespace CallEngine.Frames

structure FrameDecl where
  name : Option String := none
  self : Value := .nil
  visibility : Visibility := .pub
  jumpTarget : Option String := none
  activation : Option String := none
  isDuplicate : Bool := false

inductive Step where
  | push (frame : FrameDecl)
  | pop
  | current
  | setVisibility (visibility : Visibility)
  | isActive (target : String)
  | backtrace

inductive Answer where
  | done
  | frame (frame : FrameView)
  | flag (flag : Bool)
  | names (names : List String)
  | error (error : ErrorView)
  | fault (fault : Fault)

structure Reply where
  answer : Answer
  depth : Nat

structure Session where
  stack : FrameStack := .empty none
  /-- Names of targets; a target's serial number is its place. -/
  targets : List String := []

namespace Session

def target (session : Session) (name : String) : Target × Session :=
  let serial := session.targets.idxOf name
  if serial < session.targets.length then (⟨serial⟩, session)
  else (⟨serial⟩, { session with targets := session.targets ++ [name] })

def target? (session : Session) : Option String → Option Target × Session
  | none => (none, session)
  | some name =>
    let (target, session) := session.target name
    (some target, session)

def frame (session : Session) (decl : FrameDecl) : Frame × Session :=
  let (jumpTarget, session) := session.target? decl.jumpTarget
  let (activation, session) := session.target? decl.activation
  let frame : Frame :=
    { self := decl.self, visibility := decl.visibility, name := decl.name, jumpTarget, activation }
  (if decl.isDuplicate then frame.duplicate else frame, session)

def update (session : Session) (stack : FrameStack) (answer : Answer) : Answer × Session :=
  (answer, { session with stack })

def perform (session : Session) : Step → Answer × Session
  | .push decl =>
    let (frame, session) := session.frame decl
    match session.stack.push frame with
    | .ok stack => session.update stack .done
    | .error error => (.error (error.view {}), session)
  | .pop =>
    match session.stack.pop with
    | .ok (frame, stack) => session.update stack (.frame (frame.view {}))
    | .error fault => (.fault fault, session)
  | .current =>
    match session.stack.current with
    | .ok frame => (.frame (frame.view {}), session)
    | .error fault => (.fault fault, session)
  | .setVisibility visibility =>
    match session.stack.setVisibility visibility with
    | .ok stack => session.update stack .done
    | .error fault => (.fault fault, session)
  | .isActive name =>
    let (target, session) := session.target name
    (.flag (session.stack.isActive target), session)
  | .backtrace => (.names session.stack.backtrace, session)

def run (session : Session) : List Step → List Reply
  | [] => []
  | first :: rest =>
    let (answer, session) := session.perform first
    ⟨answer, session.stack.depth⟩ :: session.run rest

/-- With a root, the stack starts with it. -/
def start (root : Option FrameDecl) (limit : Option Nat) : Session :=
  match root with
  | none => { stack := .empty limit }
  | some decl =>
    let (frame, session) := frame {} decl
    { session with stack := .ofRoot frame limit }

end Session

end CallEngine.Frames
