import Lexaire.Bridge.Requests
import Lexaire.Bridge.Watchdog
import Lexaire.Orchestrator.Mission
import Lexaire.Orchestrator.Socket

/-! The orchestrator and the bridge together. The main thread runs its commands,
each of its calls runs the REQ socket, and the transport hands every request to
the bridge at most once, at any later time and in any order. The bridge handles a
request, and its armed callback a value, in one step; its watchdog takes every
operation for itself. A call that raises ends the orchestrator: nothing follows in
its main thread. -/
namespace Lexaire.System
open Atomic Transition Lexaire.Orchestrator
open Lexaire.Bridge (SafetyState Outside Parsed handle armedCallback heartbeatPoll lossCommand)

structure Settings where
  bridge : Bridge.Settings := {}
  orchestrator : Orchestrator.Settings

/-- A command and what the main thread has left to do for it. -/
structure Task where
  cmd : VoiceCommand
  rest : Orchestrator.Code Unit

structure State where
  latches : SafetyState := {}
  watchdog : Bridge.Code Bridge.Watch := .done {}
  session : Session := {}
  task : Option Task := none
  handled : List Nat := []
  replies : List (Nat × Json) := []

/-- The replies that the transport holds, by request number. -/
def State.replied (s : State) (id : Nat) (reply : Json) : Prop := (id, reply) ∈ s.replies

/-- The main thread's operations on the state that it shares with its calls. The
other threads, the VLM and the mission object answer at will. -/
def linkPerforms : (op : Orchestrator.Op) → Link → op.Answer → Link → Prop
  | .clearBridgeOffline, l, _, l' => l' = { l with offline := false }
  | .bridgeOffline, l, r, l' => r = l.offline ∧ l' = l
  | .setArmAuthorized value, l, _, l' => l' = { l with authorized := value }
  | _, l, _, l' => l' = l

def isCall : Orchestrator.Op → Bool
  | .dispatchToolCall _ => true
  | _ => false

/-- What the bridge makes of a request's bytes. JSON text is parsed to what it was
written from, unless the parser has a limit that the writer has not. -/
def Carried (request : Json) : Parsed → Prop
  | .value j => j = request
  | .failed _ _ => True

/-- The callback on its own; it asks the vehicle for nothing. -/
def armedReported (armed : Bool) (s : SafetyState) : SafetyState :=
  ((armedCallback armed).run Outside.nominal.answer s).state

/-- The watchdog reads the latches; the clock, the link and the vehicle answer at will. -/
def watchAnswers : (op : Bridge.Op) → SafetyState → op.Answer → Prop
  | .loadArmedWithVoice, s, r => r = s.armedWithVoice
  | .loadAborted, s, r => r = s.aborted
  | _, _, _ => True

inductive Label where
  | takes (cmd : VoiceCommand)
  | performs (op : Orchestrator.Op) (r : op.Answer)
  | calls (tc : ToolCall)
  | wires (op : WireOp) (r : op.Answer)
  | returns (result : ToolResult)
  | finishes
  | handles (id : Nat) (parsed : Parsed) (o : Outside)
  | reports (armed : Bool)
  | polls
  | watches (op : Bridge.Op) (r : op.Answer)

inductive Next (cfg : Settings) : State → Label → State → Prop where
  | takes {s : State} {cmd : VoiceCommand} (idle : s.task = none) :
      Next cfg s (.takes cmd) { s with task := some ⟨cmd, onCommand cfg.orchestrator cmd⟩ }
  | performs {s : State} {cmd : VoiceCommand} {op : Orchestrator.Op}
      {next : op.Answer → Orchestrator.Code Unit} {r : op.Answer} {link : Link}
      (at_op : s.task = some ⟨cmd, .step op next⟩) (own : isCall op = false)
      (effect : linkPerforms op s.session.link r link) :
      Next cfg s (.performs op r)
        { s with task := some ⟨cmd, next r⟩, session := { s.session with link } }
  | calls {s : State} {cmd : VoiceCommand} {tc : ToolCall}
      {next : ToolResult → Orchestrator.Code Unit} {session : Session}
      (at_op : s.task = some ⟨cmd, .step (.dispatchToolCall tc) next⟩)
      (moved : Session.Next s.replied s.session (.calls tc) session) :
      Next cfg s (.calls tc) { s with session }
  | wires {s : State} {op : WireOp} {r : op.Answer} {session : Session}
      (moved : Session.Next s.replied s.session (.wires op r) session) :
      Next cfg s (.wires op r) { s with session }
  | returns {s : State} {cmd : VoiceCommand} {tc : ToolCall}
      {next : ToolResult → Orchestrator.Code Unit} {result : ToolResult} {session : Session}
      (at_op : s.task = some ⟨cmd, .step (.dispatchToolCall tc) next⟩)
      (moved : Session.Next s.replied s.session (.returns result) session) :
      Next cfg s (.returns result) { s with task := some ⟨cmd, next result⟩, session }
  | finishes {s : State} {cmd : VoiceCommand} (ended : s.task = some ⟨cmd, .done ()⟩) :
      Next cfg s .finishes { s with task := none }
  | handles {s : State} {id : Nat} {request : Json} {parsed : Parsed} {o : Outside}
      {result : Bridge.ToolResult} (sent : s.session.link.sent[id]? = some request)
      (fresh : id ∉ s.handled) (carried : Carried request parsed)
      (answered : ((handle cfg.bridge.env cfg.bridge.ctx parsed).run o.answer s.latches).result =
        .ok result) :
      Next cfg s (.handles id parsed o)
        { s with
          latches := ((handle cfg.bridge.env cfg.bridge.ctx parsed).run o.answer s.latches).state
          handled := id :: s.handled
          replies := (id, Bridge.reply parsed result) :: s.replies }
  | reports {s : State} {armed : Bool} :
      Next cfg s (.reports armed) { s with latches := armedReported armed s.latches }
  | polls {s : State} {w : Bridge.Watch} (slept : s.watchdog = .done w) :
      Next cfg s .polls { s with watchdog := heartbeatPoll cfg.bridge w }
  | watches {s : State} {op : Bridge.Op} {next : op.Answer → Bridge.Code Bridge.Watch} {r : op.Answer}
      (at_op : s.watchdog = .step op next) (reads : op.storesLatch = false)
      (answered : watchAnswers op s.latches r) :
      Next cfg s (.watches op r) { s with watchdog := next r }

abbrev Path := List (State × Label)

@[simp] theorem armedReported_true (s : SafetyState) : armedReported true s = s := rfl
@[simp] theorem armedReported_false (s : SafetyState) : armedReported false s = {} := rfl

/-- The request of number `id` was sent for `tc`, under the command `cmd`. -/
def Sent (path : Path) (id : Nat) (cmd : VoiceCommand) (tc : ToolCall) (request : Json) : Prop :=
  ∃ t next, (t, .wires (.send request) (.ok ())) ∈ path ∧
    t.task = some ⟨cmd, .step (.dispatchToolCall tc) next⟩ ∧ t.session.link.sent.length = id

theorem Sent.mono {path : Path} {id : Nat} {cmd : VoiceCommand} {tc : ToolCall} {request : Json}
    (sent : Sent path id cmd tc request) (more : Path) : Sent (path ++ more) id cmd tc request := by
  obtain ⟨t, next, member, rest⟩ := sent
  exact ⟨t, next, List.mem_append_left more member, rest⟩

/-- What the watchdog does: it stores no latch, and has one command. -/
def Watches (cfg : Settings) (op : Bridge.Op) : Prop :=
  op.storesLatch = false ∧ (op.isCommand = true → op = .action (lossCommand cfg.bridge.hbAction))

theorem heartbeatPoll_watches (cfg : Settings) (w : Bridge.Watch) :
    (heartbeatPoll cfg.bridge w).All (Watches cfg) := by
  have reads {op : Bridge.Op} (stores : op.storesLatch = false) (silent : op.isCommand = false) :
      Watches cfg op := ⟨stores, fun command => by simp [silent] at command⟩
  exact Bridge.heartbeatPoll_all cfg.bridge w (reads rfl rfl) (reads rfl rfl) (reads rfl rfl)
    ⟨rfl, fun _ => rfl⟩

/-- So none of its steps waits for `reads`. -/
theorem watchdog_watches {cfg : Settings} {path : Path} {s : State} (run : Run (Next cfg) {} path s) :
    s.watchdog.All (Watches cfg) := by
  refine run.invariant_always (I := fun s => s.watchdog.All (Watches cfg)) ?_ trivial
  intro s e s' inv moved
  cases moved with
  | polls slept => exact heartbeatPoll_watches cfg _
  | @watches op next r at_op reads answered =>
    rw [at_op] at inv
    exact inv.2 r
  | _ => exact inv

end Lexaire.System
