import Lexaire.Core.Transition
import Lexaire.Orchestrator.Mission

/-! The orchestrator process: `run()` on the main thread, the command thread with
its queue and event, and the threads that keep the latest scene and telemetry.
Every queue operation, every use of an event and every tool call is one step. -/
namespace Lexaire.Orchestrator
open Atomic Transition

/-- The Python exceptions that the threads can meet. -/
inductive PyError where
  | attributeError | typeError | valueError | recursionError
deriving DecidableEq

/-- What `str()` and `int()` make of a JSON value, and how deeply nested a value
may be before encoding, decoding, copying or comparing it can exceed the
recursion limit. -/
structure Interpreter where
  str : Json → String
  int : Json → Except PyError Int
  limit : Nat

/-- From a decoded header; only an object has `get`. A missing `ts_ns` is now. -/
def VoiceCommand.ofHeader (py : Interpreter) : Json → Except PyError VoiceCommand
  | .object members => do
    let _ ← (members.lookup "ts_ns").elim (.ok 0) py.int
    return { text := py.str ((members.lookup "text").getD (.string ""))
             isAbort := truthy ((members.lookup "is_abort").getD (.boolean false)) }
  | _ => .error .attributeError

/-- The elements that `dict()` takes from a sequence of pairs. -/
def pairError : Json → Option PyError
  | .array [key, _] =>
    match key with
    | .array _ | .object _ => some .typeError
    | _ => none
  | .array _ => some .valueError
  | .object members => if (members.map (·.1)).eraseDups.length = 2 then none else some .valueError
  | .string s => if s.length = 2 then none else some .valueError
  | _ => some .typeError

/-- What `dict(x)` raises. -/
def dictError : Json → Option PyError
  | .object _ => none
  | .array items => items.findSome? pairError
  | .string s => if s = "" then none else some .valueError
  | _ => some .typeError

def Step.depth (step : Step) : Nat := max (Json.depthMembers step.args) step.error.depth

def OrchestratorMission.depth (m : OrchestratorMission) : Nat :=
  (m.stepHistory.map Step.depth).foldr max 0

/-- Commands are numbered in the order in which they were received. -/
structure Command where
  number : Nat
  cmd : VoiceCommand

/-- `command_q`'s `maxsize`. -/
def capacity : Nat := 16

/-- Where the command thread is: at its poll, emptying the queue for an abort, about
to put that abort, about to set the event, or about to put another command. -/
inductive Receiver where
  | polling
  | draining (abort : Command) (drained : List Command)
  | putting (abort : Command) (drained : List Command)
  | setting (abort : Command)
  | offering (command : Command)

/-- Where `run()` is; `raised` is its end by an exception. -/
inductive MainThread where
  | waiting
  | working (command : Command) (rest : Code Unit)
  | raised (e : PyError)
  | returned

structure Process where
  queue : List Command := []
  preempt : Bool := false
  stop : Bool := false
  received : Nat := 0
  receiver : Receiver := .polling
  scene : Json := .object []
  telemetry : Json := .object []
  mission : OrchestratorMission := { goalText := "" }
  main : MainThread := .waiting

/-- What an operation of the main thread answers and does. The VLM, the bridge and
the status socket answer at will. -/
def Process.performs : (op : Op) → Process → op.Answer → Process → Prop
  | .stopIsSet, s, r, s' => r = s.stop ∧ s' = s
  | .preemptIsSet, s, r, s' => r = s.preempt ∧ s' = s
  | .preemptClear, s, _, s' => s' = { s with preempt := false }
  | .queueEmpty, s, r, s' => r = s.queue.isEmpty ∧ s' = s
  | .newMission goal, s, _, s' => s' = { s with mission := { goalText := goal } }
  | .mission, s, r, s' => r = s.mission ∧ s' = s
  | .record step executed, s, _, s' => s' = { s with mission := s.mission.record step executed }
  | .vlmSubmit _, s, _, s' => dictError s.scene = none ∧ dictError s.telemetry = none ∧ s' = s
  | _, s, _, s' => s' = s

/-- What raises where no handler of the decision loop is in place: the two headers of
a context and the copy of the mission in it, the arguments of a call as it is sent,
its reply as it is decoded, and the error of a reply as it is written or compared. -/
inductive Fault where
  | scene
  | telemetry
  | history
  | args
  | reply (depth : Nat)
  | error
deriving DecidableEq

/-- What an operation raises. `vlmSubmit` includes `_build_context`. -/
inductive Process.Raises (limit : Nat) (s : Process) : Op → Fault → PyError → Prop where
  | scene {ctx : VlmContext} {e : PyError} (bad : dictError s.scene = some e) :
      Raises limit s (.vlmSubmit ctx) .scene e
  | telemetry {ctx : VlmContext} {e : PyError} (good : dictError s.scene = none)
      (bad : dictError s.telemetry = some e) : Raises limit s (.vlmSubmit ctx) .telemetry e
  | history {ctx : VlmContext} (deep : limit < s.mission.depth) :
      Raises limit s (.vlmSubmit ctx) .history .recursionError
  | args {tc : ToolCall} (deep : limit < Json.depthMembers tc.args) :
      Raises limit s (.dispatchToolCall tc) .args .recursionError
  | reply {tc : ToolCall} {depth : Nat} (deep : limit < depth) :
      Raises limit s (.dispatchToolCall tc) (.reply depth) .recursionError
  | compared {step : Step} (deep : limit < step.error.depth) :
      Raises limit s (.record step true) .error .recursionError
  | noted {text : String} {result : ToolResult} (deep : limit < result.error.depth) :
      Raises limit s (.appendHistory (.aborted text result)) .error .recursionError

inductive ProcessLabel where
  | receives (frame : Except PyError Json)
  | drains
  | drained
  | puts
  | sets
  | offers
  | hearsScene (frame : Except PyError Json)
  | hearsTelemetry (frame : Except PyError Json)
  | stops
  | takes
  | performs (op : Op) (r : op.Answer)
  | raises (op : Op) (fault : Fault)
  | finishes
  | returns

/-- The value of a decoded frame; one that does not decode is logged and dropped. -/
def heard (frame : Except PyError Json) (latest : Json) : Json := frame.toOption.getD latest

/-- What the command thread does with a command it has decoded. -/
def Process.receive (s : Process) (cmd : VoiceCommand) : Process :=
  { s with
    received := s.received + 1
    receiver :=
      if cmd.isAbort then .draining ⟨s.received, cmd⟩ [] else .offering ⟨s.received, cmd⟩ }

inductive Process.Next (settings : Settings) (py : Interpreter) :
    Process → ProcessLabel → Process → Prop where
  | receives {s : Process} {frame : Except PyError Json} {cmd : VoiceCommand}
      (polling : s.receiver = .polling) (decoded : frame.bind (VoiceCommand.ofHeader py) = .ok cmd) :
      Next settings py s (.receives frame) (s.receive cmd)
  | garbled {s : Process} {frame : Except PyError Json} {e : PyError}
      (polling : s.receiver = .polling) (failed : frame.bind (VoiceCommand.ofHeader py) = .error e) :
      Next settings py s (.receives frame) s
  | drains {s : Process} {abort command : Command} {drained queue : List Command}
      (draining : s.receiver = .draining abort drained) (head : s.queue = command :: queue) :
      Next settings py s .drains
        { s with queue, receiver := .draining abort (drained ++ [command]) }
  | drained {s : Process} {abort : Command} {drained : List Command}
      (draining : s.receiver = .draining abort drained) (empty : s.queue = []) :
      Next settings py s .drained { s with receiver := .putting abort drained }
  | puts {s : Process} {abort : Command} {drained : List Command}
      (putting : s.receiver = .putting abort drained) (room : s.queue.length < capacity) :
      Next settings py s .puts
        { s with queue := s.queue ++ [abort], receiver := .setting abort }
  | full {s : Process} {abort : Command} {drained : List Command}
      (putting : s.receiver = .putting abort drained) (full : capacity ≤ s.queue.length) :
      Next settings py s .puts { s with receiver := .polling }
  | sets {s : Process} {abort : Command} (setting : s.receiver = .setting abort) :
      Next settings py s .sets { s with preempt := true, receiver := .polling }
  | offers {s : Process} {command : Command} (offering : s.receiver = .offering command) :
      Next settings py s .offers
        { s with
          queue := if s.queue.length < capacity then s.queue ++ [command] else s.queue
          receiver := .polling }
  | hearsScene {s : Process} {frame : Except PyError Json} :
      Next settings py s (.hearsScene frame) { s with scene := heard frame s.scene }
  | hearsTelemetry {s : Process} {frame : Except PyError Json} :
      Next settings py s (.hearsTelemetry frame) { s with telemetry := heard frame s.telemetry }
  | stops {s : Process} : Next settings py s .stops { s with stop := true }
  /-- The loop's stop test and the `get` behind it. Nothing else here looks at the stop flag
  meanwhile, so a stop that falls between the two stands behind the step. -/
  | takes {s : Process} {command : Command} {queue : List Command} (waiting : s.main = .waiting)
      (running : s.stop = false) (head : s.queue = command :: queue) :
      Next settings py s .takes
        { s with queue, main := .working command (onCommand settings command.cmd) }
  | performs {s s' : Process} {command : Command} {op : Op} {next : op.Answer → Code Unit}
      {r : op.Answer} (at_op : s.main = .working command (.step op next))
      (effect : Process.performs op s r s') :
      Next settings py s (.performs op r) { s' with main := .working command (next r) }
  | raises {s : Process} {command : Command} {op : Op} {next : op.Answer → Code Unit}
      {fault : Fault} {e : PyError} (at_op : s.main = .working command (.step op next))
      (raised : s.Raises py.limit op fault e) :
      Next settings py s (.raises op fault) { s with main := .raised e }
  | finishes {s : Process} {command : Command} (ended : s.main = .working command (.done ())) :
      Next settings py s .finishes { s with main := .waiting }
  | returns {s : Process} (waiting : s.main = .waiting) (stopped : s.stop = true) :
      Next settings py s .returns { s with main := .returned }

abbrev History := List (Process × ProcessLabel)

end Lexaire.Orchestrator
