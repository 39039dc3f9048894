import CallEngine.Arity
import CallEngine.Backend
import CallEngine.Closure
import CallEngine.Code
import CallEngine.Config
import CallEngine.Engine
import CallEngine.Error
import CallEngine.Eval
import CallEngine.Eval.Act
import CallEngine.Eval.Answer
import CallEngine.Eval.Arguments
import CallEngine.Eval.Bracket
import CallEngine.Eval.Builtin
import CallEngine.Eval.Call
import CallEngine.Eval.Code
import CallEngine.Eval.Loop
import CallEngine.Eval.Operator
import CallEngine.Eval.Tree
import CallEngine.Fault
import CallEngine.Frame
import CallEngine.Library
import CallEngine.Memory
import CallEngine.Method
import CallEngine.Monitor
import CallEngine.Promotion
import CallEngine.Proofs.ArgumentBinding
import CallEngine.Proofs.Backtraces
import CallEngine.Proofs.Breaks
import CallEngine.Proofs.Bypass
import CallEngine.Proofs.CallCounts
import CallEngine.Proofs.Clones
import CallEngine.Proofs.ClosureReturns
import CallEngine.Proofs.Commands
import CallEngine.Proofs.Composition
import CallEngine.Proofs.Congruence
import CallEngine.Proofs.Containment
import CallEngine.Proofs.Control
import CallEngine.Proofs.Conveyance
import CallEngine.Proofs.Deliveries
import CallEngine.Proofs.DepthLimit
import CallEngine.Proofs.Emissions
import CallEngine.Proofs.Evolution
import CallEngine.Proofs.Identities
import CallEngine.Proofs.Interrupts
import CallEngine.Proofs.Lineages
import CallEngine.Proofs.Lookups
import CallEngine.Proofs.Lowering
import CallEngine.Proofs.MirroredRuns
import CallEngine.Proofs.MirroredSessions
import CallEngine.Proofs.MirroredSteps
import CallEngine.Proofs.Mirroring
import CallEngine.Proofs.Numbering
import CallEngine.Proofs.Opacity
import CallEngine.Proofs.Orphans
import CallEngine.Proofs.OwnFrames
import CallEngine.Proofs.Ownership
import CallEngine.Proofs.Plain
import CallEngine.Proofs.Postconditions
import CallEngine.Proofs.Promotion
import CallEngine.Proofs.RecastCalls
import CallEngine.Proofs.RecastRuns
import CallEngine.Proofs.RecastSteps
import CallEngine.Proofs.Recasting
import CallEngine.Proofs.Reissues
import CallEngine.Proofs.Renaming
import CallEngine.Proofs.Requests
import CallEngine.Proofs.Resolution
import CallEngine.Proofs.Restore
import CallEngine.Proofs.Returns
import CallEngine.Proofs.ScopedRuns
import CallEngine.Proofs.Scoping
import CallEngine.Proofs.Shapes
import CallEngine.Proofs.Signals
import CallEngine.Proofs.Soundness
import CallEngine.Proofs.Spreading
import CallEngine.Proofs.Stopping
import CallEngine.Proofs.Sublanguage
import CallEngine.Proofs.SuperArguments
import CallEngine.Proofs.SuperCalls
import CallEngine.Proofs.TailExits
import CallEngine.Proofs.Tandem
import CallEngine.Proofs.Tracing
import CallEngine.Proofs.Unwinding
import CallEngine.Proofs.Variables
import CallEngine.Proofs.VisibilityChanges
import CallEngine.Session.Command
import CallEngine.Session.Frames
import CallEngine.Session.Hooks
import CallEngine.Session.Inspect
import CallEngine.Session.Operand
import CallEngine.Session.Outline
import CallEngine.Session.Perform
import CallEngine.Session.Reply
import CallEngine.Session.Run
import CallEngine.Session.Scopes
import CallEngine.Signal
import CallEngine.State
import CallEngine.Table
import CallEngine.Text.Blank
import CallEngine.Text.Hidden
import CallEngine.Text.Quoted
import CallEngine.Text.Unsigned
import CallEngine.Tree
import CallEngine.Tree.Resolve
import CallEngine.Value
import CallEngine.View
