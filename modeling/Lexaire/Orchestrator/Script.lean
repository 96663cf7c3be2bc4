import Lexaire.Orchestrator.Process

/-! Runs of the process on chosen inputs. -/
namespace Lexaire.Orchestrator
open Atomic Transition

def Process.performs? : (op : Op) → op.Answer → Process → Option Process
  | .stopIsSet, r, s => if r = s.stop then some s else none
  | .preemptIsSet, r, s => if r = s.preempt then some s else none
  | .preemptClear, _, s => some { s with preempt := false }
  | .queueEmpty, r, s => if r = s.queue.isEmpty then some s else none
  | .newMission goal, _, s => some { s with mission := { goalText := goal } }
  | .mission, r, s => if r = s.mission then some s else none
  | .record step executed, _, s => some { s with mission := s.mission.record step executed }
  | .vlmSubmit _, _, s =>
    if dictError s.scene = none ∧ dictError s.telemetry = none then some s else none
  | _, _, s => some s

theorem Process.performs?_sound {op : Op} {r : op.Answer} {s s' : Process}
    (performed : Process.performs? op r s = some s') : Process.performs op s r s' := by
  cases op with
  | stopIsSet | preemptIsSet | queueEmpty | mission =>
    simp only [performs?, Option.ite_none_right_eq_some, Option.some.injEq] at performed
    exact ⟨performed.1, performed.2.symm⟩
  | vlmSubmit ctx =>
    simp only [performs?, Option.ite_none_right_eq_some, Option.some.injEq] at performed
    exact ⟨performed.1.1, performed.1.2, performed.2.symm⟩
  | _ => exact (Option.some.inj performed).symm

def Process.raises? (py : Interpreter) (s : Process) : Op → Fault → Option PyError
  | .vlmSubmit _, .scene => dictError s.scene
  | .vlmSubmit _, .telemetry => if dictError s.scene = none then dictError s.telemetry else none
  | .dispatchToolCall tc, .args =>
    if py.limit < Json.depthMembers tc.args then some .recursionError else none
  | .dispatchToolCall _, .reply depth => if py.limit < depth then some .recursionError else none
  | _, _ => none

theorem Process.raises?_sound {py : Interpreter} {s : Process} {op : Op} {fault : Fault}
    {e : PyError} (raised : s.raises? py op fault = some e) : s.Raises py.limit op fault e := by
  unfold raises? at raised
  split at raised
  · exact .scene raised
  · simp only [Option.ite_none_right_eq_some] at raised
    exact .telemetry raised.1 raised.2
  · simp only [Option.ite_none_right_eq_some, Option.some.injEq] at raised
    obtain ⟨deep, rfl⟩ := raised
    exact .args deep
  · simp only [Option.ite_none_right_eq_some, Option.some.injEq] at raised
    obtain ⟨deep, rfl⟩ := raised
    exact .reply deep
  · cases raised

def Process.step? (settings : Settings) (py : Interpreter) (s : Process) :
    ProcessLabel → Option Process
  | .receives frame =>
    match s.receiver, frame.bind (VoiceCommand.ofHeader py) with
    | .polling, .ok cmd => some (s.receive cmd)
    | .polling, .error _ => some s
    | _, _ => none
  | .drains =>
    match s.receiver, s.queue with
    | .draining abort drained, command :: queue =>
      some { s with queue, receiver := .draining abort (drained ++ [command]) }
    | _, _ => none
  | .drained =>
    match s.receiver, s.queue with
    | .draining abort drained, [] => some { s with receiver := .putting abort drained }
    | _, _ => none
  | .puts =>
    match s.receiver with
    | .putting abort _ =>
      if s.queue.length < capacity then
        some { s with queue := s.queue ++ [abort], receiver := .setting abort }
      else some { s with receiver := .polling }
    | _ => none
  | .sets =>
    match s.receiver with
    | .setting _ => some { s with preempt := true, receiver := .polling }
    | _ => none
  | .offers =>
    match s.receiver with
    | .offering command => some { s with
        queue := if s.queue.length < capacity then s.queue ++ [command] else s.queue
        receiver := .polling }
    | _ => none
  | .hearsScene frame => some { s with scene := heard frame s.scene }
  | .hearsTelemetry frame => some { s with telemetry := heard frame s.telemetry }
  | .stops => some { s with stop := true }
  | .takes =>
    match s.main, s.stop, s.queue with
    | .waiting, false, command :: queue =>
      some { s with queue, main := .working command (onCommand settings command.cmd) }
    | _, _, _ => none
  | .performs op r =>
    match s.main with
    | .working command rest => do
      let rest ← Program.resume? op r rest
      let s ← Process.performs? op r s
      return { s with main := .working command rest }
    | _ => none
  | .raises op fault =>
    match s.main with
    | .working _ (.step op' _) =>
      if op = op' then (s.raises? py op fault).map fun e => { s with main := .raised e } else none
    | _ => none
  | .finishes =>
    match s.main with
    | .working _ (.done ()) => some { s with main := .waiting }
    | _ => none
  | .returns =>
    match s.main, s.stop with
    | .waiting, true => some { s with main := .returned }
    | _, _ => none

theorem Process.step?_sound {settings : Settings} {py : Interpreter} {s s' : Process}
    {e : ProcessLabel} (moved : s.step? settings py e = some s') :
    Process.Next settings py s e s' := by
  cases e with
  | receives frame =>
    simp only [step?] at moved
    split at moved
    · rename_i polling decoded
      obtain rfl := Option.some.inj moved
      exact .receives polling decoded
    · rename_i polling failed
      obtain rfl := Option.some.inj moved
      exact .garbled polling failed
    · cases moved
  | drains =>
    simp only [step?] at moved
    split at moved
    · rename_i draining head
      obtain rfl := Option.some.inj moved
      exact .drains draining head
    · cases moved
  | drained =>
    simp only [step?] at moved
    split at moved
    · rename_i draining empty
      obtain rfl := Option.some.inj moved
      exact .drained draining empty
    · cases moved
  | puts =>
    simp only [step?] at moved
    split at moved
    · rename_i putting
      split at moved
      · rename_i room
        obtain rfl := Option.some.inj moved
        exact .puts putting room
      · rename_i full
        obtain rfl := Option.some.inj moved
        exact .full putting (Nat.le_of_not_lt full)
    · cases moved
  | sets =>
    simp only [step?] at moved
    split at moved
    · rename_i setting
      obtain rfl := Option.some.inj moved
      exact .sets setting
    · cases moved
  | offers =>
    simp only [step?] at moved
    split at moved
    · rename_i offering
      obtain rfl := Option.some.inj moved
      exact .offers offering
    · cases moved
  | hearsScene frame =>
    obtain rfl := Option.some.inj moved
    exact .hearsScene
  | hearsTelemetry frame =>
    obtain rfl := Option.some.inj moved
    exact .hearsTelemetry
  | stops =>
    obtain rfl := Option.some.inj moved
    exact .stops
  | takes =>
    simp only [step?] at moved
    split at moved
    · rename_i waiting running head
      obtain rfl := Option.some.inj moved
      exact .takes waiting running head
    · cases moved
  | performs op r =>
    simp only [step?] at moved
    split at moved
    · rename_i command p working
      simp only [Option.bind_eq_bind, Option.bind_eq_some_iff, Option.pure_def,
        Option.some.injEq] at moved
      obtain ⟨rest, resumed, t, performed, rfl⟩ := moved
      obtain ⟨next, rfl, rfl⟩ := Program.resume?_eq_some resumed
      exact .performs working (performs?_sound performed)
    · cases moved
  | raises op fault =>
    simp only [step?] at moved
    split at moved
    · rename_i working
      simp only [Option.ite_none_right_eq_some, Option.map_eq_some_iff] at moved
      obtain ⟨rfl, e, raised, rfl⟩ := moved
      exact .raises working (raises?_sound raised)
    · cases moved
  | finishes =>
    simp only [step?] at moved
    split at moved
    · rename_i ended
      obtain rfl := Option.some.inj moved
      exact .finishes ended
    · cases moved
  | returns =>
    simp only [step?] at moved
    split at moved
    · rename_i waiting stopped
      obtain rfl := Option.some.inj moved
      exact .returns waiting stopped
    · cases moved

/-- Letters and digits of ASCII, without case. -/
def asciiAlphabet : Text.Alphabet where
  isWord c := c.isAlphanum || c == '_'
  same c d := c == d || (c.isAlpha && d.isAlpha && c.toLower == d.toLower)

def asciiSettings : Settings := { alphabet := asciiAlphabet }

/-- Headers with a text are read; what is written of other values plays no part. -/
def plainPython : Interpreter where
  str
    | .string s => s
    | other => typeName other
  int
    | .integer n => .ok n
    | _ => .error .typeError
  limit := 300

def commandHeader (text : String) (isAbort : Bool) : Json :=
  .object [("ts_ns", .integer 1), ("text", .string text), ("is_abort", .boolean isAbort)]

/-- A command reaches the queue. -/
def offerLabels (text : String) : List ProcessLabel :=
  [.receives (.ok (commandHeader text false)), .offers]

/-- The main thread begins with a command. -/
def beginLabels (spoken : Bool) : List ProcessLabel :=
  [.performs .clearBridgeOffline (), .performs .preemptClear (),
    .performs (.setArmAuthorized spoken) ()]

/-- A mission up to its decision, after the loop-top test. -/
def consultLabels (text : String) : List ProcessLabel :=
  let mission : OrchestratorMission := { goalText := text }
  [.performs .mission mission, .performs (.publishStatus "thinking") (),
    .performs (.vlmSubmit { userCommand := text, mission }) (), .performs .vlmWait ()]

/-- The next call of a batch. -/
def callLabels (tc : ToolCall) (result : ToolResult) : List ProcessLabel :=
  [.performs .stopIsSet false, .performs .preemptIsSet false,
    .performs (.dispatchToolCall tc) result, .performs (.record (executedStep tc result) true) ()]

end Lexaire.Orchestrator
