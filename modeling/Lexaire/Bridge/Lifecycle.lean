import Lexaire.Core.Crew
import Lexaire.Bridge.Replies
import Lexaire.Bridge.Telemetry
import Lexaire.Bridge.Watchdog

/-! The bridge process: `run()` from the connection to its last line, with the watchdog and the
telemetry broadcaster as threads of their own. A call into ZMQ may fail wherever that makes
a difference, and a signal may set the stop flag at any moment. Setting an option and
publishing have no answer, since `run()` ignores it; nor has closing a socket, which fails
for what is no socket only. The destruction of a context may fail, as when a signal
interrupts it, but is taken to return: its sockets are closed by then and linger no longer. -/
namespace Lexaire.Bridge
open Atomic Transition

deriving instance Inhabited for Readings

inductive SocketKind where
  | rep | pub
deriving DecidableEq

/-- `owes` is the REP socket's turn to send. -/
structure Socket where
  kind : SocketKind
  bound : Bool := false
  owes : Bool := false

/-- `undestroyed` is a context whose destruction has failed. -/
inductive ContextPhase where
  | absent | live | destroyed | undestroyed
deriving DecidableEq

inductive Helper where
  | heartbeat | tele
deriving DecidableEq

/-- A thread that is started holds the variable `pub`. -/
inductive HelperPhase where
  | idle | started (pub : Nat) | returned | joined
deriving DecidableEq

/-- What the process holds. Sockets are numbered as they are created. -/
structure Resources where
  stop : Bool := false
  context : ContextPhase := .absent
  socket : Nat → Option Socket := fun _ => none
  created : Nat := 0
  helper : Helper → HelperPhase := fun _ => .idle

inductive RunOp where
  | stopRequested
  | setStop
  | connect
  | hasAutopilot
  | ctxNew
  | newSocket (kind : SocketKind)
  | setLinger (socket : Nat)
  | bind (socket : Nat)
  | start (helper : Helper) (pub : Nat)
  | poll (rep : Nat)
  | receive (rep : Nat)
  | serve (op : Op)
  | sendReply (rep : Nat) (reply : Json)
  | join (helper : Helper)
  | close (socket : Nat)
  | ctxDestroy
  | begins (helper : Helper)
  | watch (op : Op)
  | read
  | publish (pub : Nat) (frame : Json)
  | returns (helper : Helper)
deriving DecidableEq

@[reducible] def RunOp.Answer : RunOp → Type
  | .stopRequested | .connect | .hasAutopilot | .ctxNew | .bind _ | .poll _ | .sendReply _ _
  | .ctxDestroy => Bool
  | .newSocket _ => Option Nat
  | .receive _ => Option Parsed
  | .serve op | .watch op => op.Answer
  | .begins _ => Nat
  | .read => Readings
  | _ => Unit

abbrev RunCode := Program RunOp RunOp.Answer

def RunOp.call {ε : Type} (op : RunOp) : RunCode ε op.Answer := Program.perform op

/-- Code of the bridge under another name for its operations. -/
def within (name : Op → RunOp) (same : ∀ op, (name op).Answer = op.Answer) {α : Type} :
    Code α → RunCode String α
  | .done a => .done a
  | .raise e => .raise e
  | .step op next => .step (name op) fun r => within name same (next (same op ▸ r))

/-- Where the threads of the process begin and loop. -/
inductive RunBlock where
  | setUp
  | turn (rep pub : Nat)
  | tearDown (rep : Option Nat) (pub : Nat)
  | heartbeatStart
  | heartbeat (w : Watch)
  | teleStart
  | tele (pub : Nat)

open RunOp

/-- Up to five seconds for a system to appear. -/
def awaitAutopilot : Nat → RunCode Empty Bool
  | 0 => return false
  | tries + 1 => do
    if ← call .stopRequested then return false
    if ← call .hasAutopilot then return true
    awaitAutopilot tries

/-- How `run()` returns when a socket cannot be bound. -/
def giveUp (rep pub : Nat) : RunCode Empty (Option RunBlock) := do
  call (.close rep)
  call (.close pub)
  let _ ← call .ctxDestroy
  return none

def bindBoth (rep pub : Nat) : RunCode Empty (Option RunBlock) := do
  call (.setLinger rep)
  call (.setLinger pub)
  if !(← call (.bind rep)) then giveUp rep pub
  else if !(← call (.bind pub)) then giveUp rep pub
  else
    call (.start .heartbeat pub)
    call (.start .tele pub)
    return some (.turn rep pub)

def closeIf : Option Nat → RunCode Empty Unit
  | some socket => call (.close socket)
  | none => return

def setUp : RunCode Empty (Option RunBlock) := do
  if !(← call .connect) then return none
  if !(← awaitAutopilot 50) then return none
  if !(← call .ctxNew) then return none
  let rep ← call (.newSocket .rep)
  let pub ← call (.newSocket .pub)
  match rep, pub with
  | some rep, some pub => bindBoth rep pub
  | rep, pub =>
    closeIf rep
    closeIf pub
    let _ ← call .ctxDestroy
    return none

def serveRequest (cfg : Settings) (parsed : Parsed) : RunCode Empty ToolResult :=
  (within .serve (fun _ => rfl) (handle cfg.env cfg.ctx parsed)).recover badRequest

/-- One turn of the REQ/REP loop; a reply that is not sent costs the socket. -/
def turnOnce (cfg : Settings) (rep pub : Nat) : RunCode Empty (Option RunBlock) := do
  if ← call .stopRequested then return some (.tearDown (some rep) pub)
  if !(← call (.poll rep)) then return some (.turn rep pub)
  match ← call (.receive rep) with
  | none => return some (.turn rep pub)
  | some parsed =>
    let result ← serveRequest cfg parsed
    if ← call (.sendReply rep (reply parsed result)) then return some (.turn rep pub)
    call (.close rep)
    match ← call (.newSocket .rep) with
    | none => return some (.tearDown none pub)
    | some rep =>
      call (.setLinger rep)
      if ← call (.bind rep) then return some (.turn rep pub)
      else return some (.tearDown (some rep) pub)

def tearDown (rep : Option Nat) (pub : Nat) : RunCode Empty (Option RunBlock) := do
  call .setStop
  call (.join .heartbeat)
  call (.join .tele)
  closeIf rep
  call (.close pub)
  let _ ← call .ctxDestroy
  return none

def leave (helper : Helper) : RunCode Empty (Option RunBlock) := do
  call (.returns helper)
  return none

def heartbeatRound (cfg : Settings) (w : Watch) : RunCode Empty (Option RunBlock) := do
  if ← call .stopRequested then leave .heartbeat
  else
    let w ← (within .watch (fun _ => rfl) (heartbeatPoll cfg w)).recover fun _ => w
    return some (.heartbeat w)

/-- The flag is tested again, so that a signal during the readings is seen. -/
def teleRound (unspecified : Int32) (pub : Nat) : RunCode Empty (Option RunBlock) := do
  if ← call .stopRequested then leave .tele
  else
    let readings ← call .read
    if ← call .stopRequested then leave .tele
    else
      call (.publish pub (readings.telemetry unspecified).toJson)
      return some (.tele pub)

/-- What a call may answer. A join waits for its thread, and a thread for its start. -/
def RunOp.answers : (op : RunOp) → Resources → op.Answer → Bool
  | .stopRequested, s, r => r == s.stop
  | .newSocket _, s, r => r.all (· == s.created)
  | .join helper, s, _ => s.helper helper == .returned
  | .begins helper, s, r => s.helper helper == .started r
  | _, _, _ => true

def Resources.setSocket (s : Resources) (h : Nat) (x : Option Socket) : Resources :=
  { s with socket := Function.update s.socket h x }

def Resources.setHelper (s : Resources) (t : Helper) (p : HelperPhase) : Resources :=
  { s with helper := Function.update s.helper t p }

/-- What a call does, by its answer. -/
def RunOp.after : (op : RunOp) → Resources → op.Answer → Resources
  | .setStop, s, _ => { s with stop := true }
  | .ctxNew, s, true => { s with context := .live }
  | .newSocket kind, s, some h => { s.setSocket h (some { kind }) with created := s.created + 1 }
  | .bind h, s, true => s.setSocket h ((s.socket h).map fun k => { k with bound := true })
  | .start helper pub, s, _ => s.setHelper helper (.started pub)
  | .receive h, s, some _ => s.setSocket h ((s.socket h).map fun k => { k with owes := true })
  | .sendReply h _, s, true => s.setSocket h ((s.socket h).map fun k => { k with owes := false })
  | .join helper, s, _ => s.setHelper helper .joined
  | .close h, s, _ => s.setSocket h none
  | .ctxDestroy, s, destroyed => { s with context := if destroyed then .destroyed else .undestroyed }
  | .returns helper, s, _ => s.setHelper helper .returned
  | _, s, _ => s

def RunOp.performs (op : RunOp) (s : Resources) (r : op.Answer) (s' : Resources) : Prop :=
  op.answers s r = true ∧ s' = op.after s r

inductive RunThread where
  | main
  | helper (helper : Helper)
deriving DecidableEq

/-- The threads of the process; what drifts in is SIGINT or SIGTERM. -/
def process (cfg : Settings) (unspecified : Int32) : Crew RunBlock RunOp RunOp.Answer Resources where
  block
    | .setUp => setUp
    | .turn rep pub => turnOnce cfg rep pub
    | .tearDown rep pub => tearDown rep pub
    | .heartbeatStart => do
      let _ ← call (.begins .heartbeat)
      return some (.heartbeat {})
    | .heartbeat w => heartbeatRound cfg w
    | .teleStart => do
      let pub ← call (.begins .tele)
      return some (.tele pub)
    | .tele pub => teleRound unspecified pub
  performs := RunOp.performs
  drifts s s' := s' = { s with stop := true }

abbrev ProcessState := Crew.State RunThread RunBlock RunOp.Answer Resources

abbrev ProcessHistory := Crew.History RunThread RunBlock RunOp.Answer Resources

def RunThread.first : RunThread → RunBlock
  | .main => .setUp
  | .helper .heartbeat => .heartbeatStart
  | .helper .tele => .teleStart

def ProcessState.start (cfg : Settings) (unspecified : Int32) : ProcessState :=
  ⟨fun i => some ((process cfg unspecified).block i.first), {}⟩

end Lexaire.Bridge
