import Lexaire.Core.Program
import Lexaire.Orchestrator.Messages

/-! One tool call to the flight bridge over its REQ socket. -/
namespace Lexaire.Orchestrator
open Atomic

/-- The exceptions that `_dispatch_tool_call` catches, with their `repr`: a
timeout, another ZMQ error, and a `ValueError` or `TypeError`. -/
inductive WireError where
  | again
  | zmq (what : String)
  | parse (what : String)
deriving DecidableEq

/-- What the body of its `try` raises: one of these, or a `RecursionError` of json, for
arguments or a reply that nest too deep, which no clause catches. -/
inductive WireException where
  | caught (e : WireError)
  | recursionError
deriving DecidableEq

/-- `send` is also where arguments that JSON cannot write raise, and `recv` where
a reply that is not JSON text does. -/
inductive WireOp where
  | bridgeOffline
  | setBridgeOffline (value : Bool)
  | currentArmAuthorized
  | publishStatus (state : String)
  | ensureReqSocket
  | resetReqSocket
  | send (request : Json)
  | recv
deriving DecidableEq

@[reducible] def WireOp.Answer : WireOp → Type
  | .bridgeOffline | .currentArmAuthorized => Bool
  | .setBridgeOffline _ | .publishStatus _ | .resetReqSocket => Unit
  | .ensureReqSocket => Except WireError Unit
  | .send _ => Except WireException Unit
  | .recv => Except WireException Json

abbrev Wire := Program WireOp WireOp.Answer WireException

def bridgeOffline : Wire Bool := Program.perform WireOp.bridgeOffline
def setBridgeOffline (value : Bool) : Wire Unit := Program.perform (WireOp.setBridgeOffline value)
def currentArmAuthorized : Wire Bool := Program.perform WireOp.currentArmAuthorized
def publishStatus (state : String) : Wire Unit := Program.perform (WireOp.publishStatus state)
def ensureReqSocket : Wire (Except WireError Unit) := Program.perform WireOp.ensureReqSocket
def resetReqSocket : Wire Unit := Program.perform WireOp.resetReqSocket
def send (request : Json) : Wire (Except WireException Unit) := Program.perform (WireOp.send request)
def recv : Wire (Except WireException Json) := Program.perform WireOp.recv

section
variable {α : Type}

@[simp] theorem bridgeOffline_bind (f : Bool → Wire α) :
    (bridgeOffline >>= f) = .step .bridgeOffline f := rfl
@[simp] theorem setBridgeOffline_bind (v : Bool) (f : Unit → Wire α) :
    (setBridgeOffline v >>= f) = .step (.setBridgeOffline v) f := rfl
@[simp] theorem currentArmAuthorized_bind (f : Bool → Wire α) :
    (currentArmAuthorized >>= f) = .step .currentArmAuthorized f := rfl
@[simp] theorem publishStatus_bind (state : String) (f : Unit → Wire α) :
    (publishStatus state >>= f) = .step (.publishStatus state) f := rfl
@[simp] theorem ensureReqSocket_bind (f : Except WireError Unit → Wire α) :
    (ensureReqSocket >>= f) = .step .ensureReqSocket f := rfl
@[simp] theorem resetReqSocket_bind (f : Unit → Wire α) :
    (resetReqSocket >>= f) = .step .resetReqSocket f := rfl
@[simp] theorem send_bind (request : Json) (f : Except WireException Unit → Wire α) :
    (send request >>= f) = .step (.send request) f := rfl
@[simp] theorem recv_bind (f : Except WireException Json → Wire α) :
    (recv >>= f) = .step .recv f := rfl
end

/-- `voice_confirmed` is the orchestrator's own word, whatever the VLM wrote. -/
def authorizedArgs (tc : ToolCall) : Wire (List (String × Json)) :=
  if tc.name = "arm" then do
    return Json.setMember "voice_confirmed" (.boolean (← currentArmAuthorized)) tc.args
  else return tc.args

def request (tc : ToolCall) (args : List (String × Json)) : Json := .object [
  ("request_id", .string tc.requestId),
  ("name", .string tc.name),
  ("args", .object args)]

/-- A reply that is an object, read with its defaults. -/
def ToolResult.ofReply (tc : ToolCall) (data : Json) : ToolResult where
  requestId := (data.find? "request_id").getD (.string tc.requestId)
  ok := truthy ((data.find? "ok").getD (.boolean false))
  error := (data.find? "error").getD .null
  data := (data.find? "data").getD .null

/-- The body of the `try`. -/
def exchange (tc : ToolCall) (args : List (String × Json)) : Wire ToolResult := do
  Program.ofExcept ((← ensureReqSocket).mapError .caught)
  Program.ofExcept (← send (request tc args))
  let data ← Program.ofExcept (← recv)
  match data with
  | .object _ =>
    setBridgeOffline false
    return ToolResult.ofReply tc data
  | _ => Program.raise (.caught <| .parse ("TypeError('non-dict reply: " ++ typeName data ++ "')"))

def failure (tc : ToolCall) (error : String) : ToolResult :=
  { requestId := .string tc.requestId, ok := false, error := .string error }

/-- The `except` clauses. A garbled reply does not count as an offline bridge. -/
def onWireError (tc : ToolCall) : WireException → Wire ToolResult
  | .caught .again => do
    resetReqSocket
    setBridgeOffline true
    publishStatus "bridge_offline"
    return failure tc "timeout"
  | .caught (.zmq what) => do
    resetReqSocket
    setBridgeOffline true
    publishStatus "bridge_offline"
    return failure tc ("wire_error: " ++ what)
  | .caught (.parse what) => do
    resetReqSocket
    return failure tc ("wire_error: " ++ what)
  | .recursionError => Program.raise .recursionError

def dispatchToolCall (tc : ToolCall) : Wire ToolResult := do
  if ← bridgeOffline then
    publishStatus "bridge_offline"
    return failure tc "bridge_offline"
  else
    let args ← authorizedArgs tc
    (exchange tc args).catching (onWireError tc)

/-- What a call that returns finds: the two flags and the answers of its socket. -/
structure Line where
  offline : Bool := false
  authorized : Bool := false
  socket : Except WireError Unit := .ok ()
  sent : Except WireError Unit := .ok ()
  received : Except WireError Json

@[simp] def Line.answer (l : Line) : (op : WireOp) → Bool → op.Answer × Bool
  | .bridgeOffline, offline => (offline, offline)
  | .setBridgeOffline value, _ => ((), value)
  | .currentArmAuthorized, offline => (l.authorized, offline)
  | .publishStatus _, offline => ((), offline)
  | .ensureReqSocket, offline => (l.socket, offline)
  | .resetReqSocket, offline => ((), offline)
  | .send _, offline => (l.sent.mapError .caught, offline)
  | .recv, offline => (l.received.mapError .caught, offline)

/-- The reply of this very call, when it arrived and was a JSON object. -/
def Line.reply? (l : Line) : Option (List (String × Json)) :=
  match l.offline, l.socket, l.sent, l.received with
  | false, .ok _, .ok _, .ok (.object members) => some members
  | _, _, _, _ => none

theorem Line.reply?_received {l : Line} {members : List (String × Json)}
    (got : l.reply? = some members) : l.received = .ok (.object members) := by
  unfold reply? at got
  split at got
  · next arrived =>
    obtain rfl := Option.some.inj got
    exact arrived
  · cases got

/-- The error text of a call that got no such reply. -/
def Line.failure (l : Line) : String :=
  if l.offline then "bridge_offline"
  else
    match l.socket.bind fun _ => l.sent.bind fun _ => l.received with
    | .error .again => "timeout"
    | .error (.zmq what) | .error (.parse what) => "wire_error: " ++ what
    | .ok data => "wire_error: " ++ ("TypeError('non-dict reply: " ++ typeName data ++ "')")

theorem authorizedArgs_run (l : Line) (tc : ToolCall) :
    ∃ reads args, (authorizedArgs tc).run l.answer l.offline = ⟨reads, l.offline, .ok args⟩ := by
  unfold authorizedArgs
  by_cases arm : tc.name = "arm"
  · exact ⟨_, _, by simp only [arm, if_true, currentArmAuthorized_bind]; rfl⟩
  · exact ⟨_, _, by simp only [arm, if_false]; rfl⟩

/-- What the socket came to, up to its first failure. -/
def Line.outcome (l : Line) : Except WireError Json :=
  l.socket.bind fun _ => l.sent.bind fun _ => l.received

/-- A `ValueError` or `TypeError`: the reply is no JSON text, or no object. -/
def Line.garbled (l : Line) : Bool :=
  !l.offline && match l.outcome with
    | .ok (.object _) | .error .again | .error (.zmq _) => false
    | .ok _ | .error (.parse _) => true

/-- A call returns: the reply when there is one, else the failure; and of the
calls without a reply, the garbled ones leave the flag clear. -/
theorem dispatchToolCall_returns (l : Line) (tc : ToolCall) :
    ((dispatchToolCall tc).run l.answer l.offline).state = (l.reply?.isNone && !l.garbled) ∧
    ((dispatchToolCall tc).run l.answer l.offline).result = .ok (match l.reply? with
      | some members => ToolResult.ofReply tc (.object members)
      | none => Orchestrator.failure tc l.failure) := by
  obtain ⟨reads, args, authorized⟩ := authorizedArgs_run l tc
  obtain ⟨offline, arm, socket, sent, received⟩ := l
  unfold dispatchToolCall
  cases offline with
  | true => simp [Line.reply?, Line.garbled, Line.failure]
  | false =>
    simp only [bridgeOffline_bind, Program.run_step, Line.answer, Bool.false_eq_true, if_false,
      Program.run_bind, authorized, Program.Outcome.andThen, exchange, Line.reply?, Line.garbled,
      Line.outcome, Line.failure]
    cases socket with
    | error e => cases e <;> simp [onWireError, Except.bind, Except.mapError]
    | ok u =>
      cases sent with
      | error e => cases e <;> simp [onWireError, Except.bind, Except.mapError]
      | ok u =>
        cases received with
        | error e => cases e <;> simp [onWireError, Except.bind, Except.mapError]
        | ok data => cases data <;> simp [onWireError, Except.bind, Except.mapError]

theorem dispatchToolCall_result (l : Line) (tc : ToolCall) :
    ((dispatchToolCall tc).run l.answer l.offline).result = .ok (match l.reply? with
      | some members => ToolResult.ofReply tc (.object members)
      | none => Orchestrator.failure tc l.failure) :=
  (dispatchToolCall_returns l tc).2

theorem dispatchToolCall_offline (l : Line) (tc : ToolCall) :
    ((dispatchToolCall tc).run l.answer l.offline).state = (l.reply?.isNone && !l.garbled) :=
  (dispatchToolCall_returns l tc).1

end Lexaire.Orchestrator
