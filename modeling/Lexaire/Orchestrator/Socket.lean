import Lexaire.Core.Alone
import Lexaire.Orchestrator.Wire

/-! The REQ socket across calls. It is made when a call needs it, owes a reply
from a send to its receive, and is thrown away on every failure. Reply ids are
never compared: that a reply is the one to this call's request rests on the
socket being idle or absent whenever a call begins. -/
namespace Lexaire.Orchestrator
open Atomic Transition

/-- A REQ socket alternates: after a send it owes the receive of that request's reply. -/
inductive ReqSocket where
  | idle
  | owes (request : Nat)
deriving DecidableEq

/-- What the calls of the main thread share. Requests are numbered by their place
among those handed to the transport. -/
structure Link where
  socket : Option ReqSocket := none
  offline : Bool := false
  authorized : Bool := false
  sent : List Json := []

/-- The socket and the two flags; `replied` says which replies to which requests
the transport has for a socket that waits for one. -/
def Link.performs (replied : Nat → Json → Prop) :
    (op : WireOp) → Link → op.Answer → Link → Prop
  | .bridgeOffline, l, r, l' => r = l.offline ∧ l' = l
  | .setBridgeOffline value, l, _, l' => l' = { l with offline := value }
  | .currentArmAuthorized, l, r, l' => r = l.authorized ∧ l' = l
  | .publishStatus _, l, _, l' => l' = l
  | .ensureReqSocket, l, r, l' =>
    match r with
    | .ok _ => l' = { l with socket := some (l.socket.getD .idle) }
    | .error _ => l.socket = none ∧ l' = l
  | .resetReqSocket, l, _, l' => l' = { l with socket := none }
  | .send request, l, r, l' =>
    match r with
    | .ok _ => l.socket = some .idle ∧
        l' = { l with socket := some (.owes l.sent.length), sent := l.sent ++ [request] }
    | .error _ => l' = l
  | .recv, l, r, l' =>
    match r with
    | .ok reply => ∃ id, l.socket = some (.owes id) ∧ replied id reply ∧
        l' = { l with socket := some .idle }
    | .error (.caught (.parse _)) | .error .recursionError =>
      ∃ id, l.socket = some (.owes id) ∧ l' = { l with socket := some .idle }
    | .error _ => l' = l

/-- The exception of those it catches that an operation raised. -/
def raised : Event WireOp.Answer → Option WireError
  | ⟨.ensureReqSocket, .error e⟩ | ⟨.send _, .error (.caught e)⟩
  | ⟨.recv, .error (.caught e)⟩ => some e
  | _ => none

/-- A timeout or another ZMQ error. -/
def WireError.isZmq : WireError → Bool
  | .again | .zmq _ => true
  | .parse _ => false

def WireException.isZmq : WireException → Bool
  | .caught e => e.isZmq
  | .recursionError => false

/-- The operations of a call so far, and what is left of it. -/
structure Calling where
  tc : ToolCall
  trace : List (Event WireOp.Answer)
  rest : Wire ToolResult

structure Session where
  link : Link := {}
  call : Option Calling := none

inductive SessionLabel where
  | clearsOffline
  | authorizes (value : Bool)
  | calls (tc : ToolCall)
  | wires (op : WireOp) (r : op.Answer)
  | returns (result : ToolResult)
  | raises (e : WireException)

/-- Calls one after the other, and between them the two resets of a new command. -/
inductive Session.Next (replied : Nat → Json → Prop) : Session → SessionLabel → Session → Prop where
  | clearsOffline {s : Session} (between : s.call = none) :
      Next replied s .clearsOffline { s with link := { s.link with offline := false } }
  | authorizes {s : Session} {value : Bool} (between : s.call = none) :
      Next replied s (.authorizes value) { s with link := { s.link with authorized := value } }
  | calls {s : Session} {tc : ToolCall} (between : s.call = none) :
      Next replied s (.calls tc) { s with call := some ⟨tc, [], dispatchToolCall tc⟩ }
  | wires {s : Session} {tc : ToolCall} {trace : List (Event WireOp.Answer)} {op : WireOp}
      {next : op.Answer → Wire ToolResult} {r : op.Answer} {link : Link}
      (at_op : s.call = some ⟨tc, trace, .step op next⟩)
      (effect : s.link.performs replied op r link) :
      Next replied s (.wires op r) { link, call := some ⟨tc, trace ++ [⟨op, r⟩], next r⟩ }
  | returns {s : Session} {tc : ToolCall} {trace : List (Event WireOp.Answer)} {result : ToolResult}
      (ended : s.call = some ⟨tc, trace, .done result⟩) :
      Next replied s (.returns result) { s with call := none }
  | raises {s : Session} {tc : ToolCall} {trace : List (Event WireOp.Answer)} {e : WireException}
      (ended : s.call = some ⟨tc, trace, .raise e⟩) :
      Next replied s (.raises e) { s with call := none }

/-- The call was turned down because the flag was set before it. -/
def isRefusal : Event WireOp.Answer → Bool
  | ⟨.bridgeOffline, offline⟩ => offline
  | _ => false

def refused (trace : List (Event WireOp.Answer)) : Bool := trace.any isRefusal

def zmqFailed (trace : List (Event WireOp.Answer)) : Bool :=
  trace.any fun event => (raised event).any (·.isZmq)

section
variable (event : Event WireOp.Answer) (trace more : List (Event WireOp.Answer))

@[simp] theorem refused_nil : refused [] = false := rfl
@[simp] theorem zmqFailed_nil : zmqFailed [] = false := rfl
@[simp] theorem refused_cons : refused (event :: trace) = (isRefusal event || refused trace) := rfl
@[simp] theorem zmqFailed_cons :
    zmqFailed (event :: trace) = ((raised event).any (·.isZmq) || zmqFailed trace) := rfl

@[simp] theorem refused_append : refused (trace ++ more) = (refused trace || refused more) := by
  simp only [refused, List.any_append]

@[simp] theorem zmqFailed_append :
    zmqFailed (trace ++ more) = (zmqFailed trace || zmqFailed more) := by
  simp only [zmqFailed, List.any_append]

end

/-- How a call returns: with its own request's reply, or without a socket. -/
inductive Exit (replied : Nat → Json → Prop) (tc : ToolCall) (l : Link)
    (trace : List (Event WireOp.Answer)) (result : ToolResult) : Prop where
  | replied {earlier : List Json} {args members : List (String × Json)}
      (latest : l.sent = earlier ++ [request tc args])
      (sent : ⟨.send (request tc args), .ok ()⟩ ∈ trace)
      (received : ⟨.recv, .ok (.object members)⟩ ∈ trace)
      (own : replied earlier.length (.object members))
      (built : result = ToolResult.ofReply tc (.object members))
      (idle : l.socket = some .idle) (online : l.offline = false)
  | failed {text : String} (discarded : l.socket = none)
      (flag : l.offline = true ↔ (refused trace || zmqFailed trace) = true)
      (built : result = failure tc text)

/-- How a call is left; an exception leaves a socket that owes nothing. -/
inductive Left (replied : Nat → Json → Prop) (tc : ToolCall) (l : Link)
    (trace : List (Event WireOp.Answer)) : Except WireException ToolResult → Prop where
  | returned {result : ToolResult} (exit : Exit replied tc l trace result) :
      Left replied tc l trace (.ok result)
  | raised (idle : l.socket = some .idle) (online : l.offline = false) :
      Left replied tc l trace (.error .recursionError)

/-- How a call may begin. -/
structure Ready (l : Link) : Prop where
  settled : l.socket = none ∨ l.socket = some .idle
  discarded : l.offline = true → l.socket = none

/-- The arguments that a request of this call carries. -/
def Authorized (tc : ToolCall) (l : Link) (args : List (String × Json)) : Prop :=
  tc.name = "arm" → args.lookup "voice_confirmed" = some (.boolean l.authorized)

/-- Sends find the socket idle; receives wait for the reply to this call's request. -/
def Proper (tc : ToolCall) (l : Link) : WireOp → Prop
  | .send req => l.socket = some .idle ∧ ∃ args, req = request tc args ∧ Authorized tc l args
  | .recv => ∃ earlier args, l.socket = some (.owes earlier.length) ∧
      l.sent = earlier ++ [request tc args]
  | _ => True

theorem Left.ready {replied : Nat → Json → Prop} {tc : ToolCall} {l : Link}
    {trace : List (Event WireOp.Answer)} {r : Except WireException ToolResult}
    (left : Left replied tc l trace r) : Ready l := by
  cases left with
  | returned exit =>
    cases exit with
    | replied _ _ _ _ _ idle online => exact ⟨.inr idle, by simp [online]⟩
    | failed discarded => exact ⟨.inl discarded, fun _ => discarded⟩
  | raised idle online => exact ⟨.inr idle, by simp [online]⟩

section
variable {replied : Nat → Json → Prop} {tc : ToolCall} {l : Link}
  {trace : List (Event WireOp.Answer)}

abbrev wiring (replied : Nat → Json → Prop) :
    Setting WireOp WireOp.Answer (Link × List (Event WireOp.Answer)) :=
  .alone (traced (Link.performs replied))

abbrev Disciplined (replied : Nat → Json → Prop) (tc : ToolCall) {α : Type}
    (post : Except WireException α → Link × List (Event WireOp.Answer) → Prop) (p : Wire α)
    (s : Link × List (Event WireOp.Answer)) : Prop :=
  p.Holds (wiring replied) (fun op s => Proper tc s.1 op) post s

variable {α : Type} {post : Except WireException α → Link × List (Event WireOp.Answer) → Prop}

theorem disciplined_step {op : WireOp} {next : op.Answer → Wire α} (now : Proper tc l op)
    (after : ∀ r l', l.performs replied op r l' →
      Disciplined replied tc post (next r) (l', trace ++ [⟨op, r⟩])) :
    Disciplined replied tc post (.step op next) (l, trace) := by
  refine .alone_step now ?_
  rintro r ⟨l', trace'⟩ ⟨effect, rfl⟩
  exact after r l' effect

/-- Where the body of the `try` has left off. -/
inductive Exchanged (replied : Nat → Json → Prop) (tc : ToolCall) (l : Link)
    (trace : List (Event WireOp.Answer)) : Except WireException ToolResult → Prop where
  | ok {result : ToolResult} (exit : Exit replied tc l trace result) :
      Exchanged replied tc l trace (.ok result)
  | error {e : WireException} (online : l.offline = false) (accepted : refused trace = false)
      (lost : zmqFailed trace = e.isZmq) (idle : e = .recursionError → l.socket = some .idle) :
      Exchanged replied tc l trace (.error e)

theorem onWireError_disciplined (e : WireException) (online : l.offline = false)
    (accepted : refused trace = false) (lost : zmqFailed trace = e.isZmq)
    (idle : e = .recursionError → l.socket = some .idle) :
    Disciplined replied tc (fun r s => Left replied tc s.1 s.2 r) (onWireError tc e) (l, trace) := by
  cases e with
  | recursionError => exact .alone_raise (.raised (idle rfl) online)
  | caught e =>
    cases e with
    | again | zmq what =>
      refine disciplined_step trivial ?_
      rintro r _ rfl
      refine disciplined_step trivial ?_
      rintro r _ rfl
      refine disciplined_step trivial ?_
      rintro r _ rfl
      refine .alone_done (.returned (.failed rfl ?_ rfl))
      simp [accepted, lost, isRefusal, raised, WireException.isZmq, WireError.isZmq]
    | parse what =>
      refine disciplined_step trivial ?_
      rintro r _ rfl
      refine .alone_done (.returned (.failed rfl ?_ rfl))
      simp [accepted, lost, isRefusal, raised, WireException.isZmq, WireError.isZmq, online]

theorem received_disciplined (earlier : List Json) (args : List (String × Json))
    (online : l.offline = false) (accepted : refused trace = false)
    (smooth : zmqFailed trace = false) (owing : l.socket = some (.owes earlier.length))
    (latest : l.sent = earlier ++ [request tc args])
    (sent : ⟨.send (request tc args), .ok ()⟩ ∈ trace) :
    Disciplined replied tc (fun r s => Exchanged replied tc s.1 s.2 r)
      (.step .recv fun reply => Program.ofExcept reply >>= fun data =>
        match data with
        | .object _ => .step (.setBridgeOffline false) fun _ =>
          .done (ToolResult.ofReply tc data)
        | _ => Program.raise
          (.caught <| .parse ("TypeError('non-dict reply: " ++ typeName data ++ "')")))
      (l, trace) := by
  refine disciplined_step ⟨earlier, args, owing, latest⟩ ?_
  rintro (e | reply) l' effect
  · have kept : l'.offline = false ∧ (e = .recursionError → l'.socket = some .idle) := by
      cases e with
      | recursionError =>
        obtain ⟨id, -, rfl⟩ := effect
        exact ⟨online, fun _ => rfl⟩
      | caught e =>
        refine ⟨?_, by simp⟩
        cases e with
        | parse what =>
          obtain ⟨id, -, rfl⟩ := effect
          exact online
        | _ =>
          obtain rfl := effect
          exact online
    refine .alone_raise (.error kept.1 ?_ ?_ kept.2)
    · simp [accepted, isRefusal]
    · cases e <;> simp [smooth, raised, WireException.isZmq]
  · obtain ⟨id, waiting, own, rfl⟩ := effect
    obtain rfl : earlier.length = id := by
      rw [owing] at waiting
      exact ReqSocket.owes.inj (Option.some.inj waiting)
    have garbled (what : String) : Disciplined replied tc (fun r s => Exchanged replied tc s.1 s.2 r)
        (Program.raise (.caught <| .parse what))
        ({ l with socket := some .idle }, trace ++ [⟨.recv, .ok reply⟩]) := by
      refine .alone_raise (.error online ?_ ?_ (by simp))
      · simp [accepted, isRefusal]
      · simp [smooth, raised, WireException.isZmq, WireError.isZmq]
    cases reply with
    | object members =>
      refine disciplined_step trivial ?_
      rintro r _ rfl
      refine .alone_done (.ok (.replied latest ?_ ?_ own rfl rfl rfl))
      · simp [sent]
      · simp
    | _ => exact garbled _

theorem exchange_disciplined {args : List (String × Json)} (ready : Ready l)
    (online : l.offline = false) (accepted : refused trace = false)
    (smooth : zmqFailed trace = false) (authorized : Authorized tc l args) :
    Disciplined replied tc (fun r s => Exchanged replied tc s.1 s.2 r) (exchange tc args)
      (l, trace) := by
  have failed (e : WireException) (l' : Link) (trace' : List (Event WireOp.Answer))
      (online : l'.offline = false) (accepted : refused trace' = false)
      (lost : zmqFailed trace' = e.isZmq) (idle : e = .recursionError → l'.socket = some .idle) :
      Disciplined replied tc (fun r s => Exchanged replied tc s.1 s.2 r)
        (Program.raise e) (l', trace') :=
    .alone_raise (.error online accepted lost idle)
  unfold exchange
  refine disciplined_step trivial ?_
  rintro (e | ⟨⟩) l' made
  · obtain ⟨-, rfl⟩ := made
    apply failed (.caught e) _ _ online
    · simp [accepted, isRefusal]
    · simp [smooth, raised, WireException.isZmq]
    · simp
  · obtain rfl := made
    have idle : l.socket.getD .idle = .idle := by
      rcases ready.settled with none | some <;> simp [*]
    refine disciplined_step ⟨by simp [idle], args, rfl, authorized⟩ ?_
    rintro (e | ⟨⟩) l' handed
    · obtain rfl := handed
      refine failed e _ _ online ?_ ?_ ?_
      · simp [accepted, isRefusal]
      · cases e <;> simp [smooth, raised, WireException.isZmq]
      · simp [idle]
    · obtain ⟨-, rfl⟩ := handed
      refine received_disciplined l.sent args online ?_ ?_ rfl rfl ?_
      · simp [accepted, isRefusal]
      · simp [smooth, raised]
      · simp

theorem dispatchToolCall_disciplined (ready : Ready l) :
    Disciplined replied tc (fun r s => Left replied tc s.1 s.2 r) (dispatchToolCall tc) (l, []) := by
  unfold dispatchToolCall
  refine disciplined_step trivial ?_
  rintro offline l' ⟨found, same⟩
  subst l'
  change Disciplined _ _ _ (if offline = true then _ else _) _
  cases offline with
  | true =>
    refine disciplined_step trivial ?_
    rintro r _ rfl
    refine .alone_done (.returned (.failed (ready.discarded found.symm) ?_ rfl))
    simp [← found, isRefusal]
  | false =>
    have caught {args : List (String × Json)} {trace : List (Event WireOp.Answer)}
        (accepted : refused trace = false) (smooth : zmqFailed trace = false)
        (authorized : Authorized tc l args) : Disciplined replied tc
          (fun r s => Left replied tc s.1 s.2 r)
          ((exchange tc args).catching (onWireError tc)) (l, trace) := by
      refine (exchange_disciplined ready found.symm accepted smooth authorized).catching ?_ ?_
      · rintro result s ⟨exit⟩
        exact .returned exit
      · rintro e ⟨l', trace'⟩ ⟨⟩
        rename_i online accepted lost idle
        exact onWireError_disciplined e online accepted lost idle
    unfold authorizedArgs
    by_cases arm : tc.name = "arm"
    · simp only [arm, if_true]
      refine disciplined_step trivial ?_
      rintro authorized _ ⟨rfl, rfl⟩
      exact caught rfl rfl fun _ => Json.lookup_setMember _ _ _
    · simp only [arm, if_false]
      exact caught rfl rfl fun named => absurd named arm

/-! Sequences of calls. -/

structure Session.Disciplined (replied : Nat → Json → Prop) (s : Session) : Prop where
  between : s.call = none → Ready s.link
  calling : ∀ {tc trace rest}, s.call = some ⟨tc, trace, rest⟩ →
    Orchestrator.Disciplined replied tc (fun r s => Left replied tc s.1 s.2 r) rest (s.link, trace)

namespace Session.Disciplined
variable {s s' : Session} {e : SessionLabel}

theorem initial : Session.Disciplined replied {} :=
  ⟨fun _ => ⟨.inl rfl, fun _ => rfl⟩, by simp⟩

theorem step (inv : s.Disciplined replied) (moved : Next replied s e s') :
    s'.Disciplined replied := by
  cases moved with
  | clearsOffline between =>
    refine ⟨fun _ => ⟨(inv.between between).settled, by simp⟩, ?_⟩
    intro tc trace rest calling
    simp [between] at calling
  | authorizes between =>
    refine ⟨fun _ => ⟨(inv.between between).settled, (inv.between between).discarded⟩, ?_⟩
    intro tc trace rest calling
    simp [between] at calling
  | calls between =>
    refine ⟨by simp, ?_⟩
    intro tc trace rest calling
    obtain ⟨rfl, rfl, rfl⟩ := Calling.mk.inj (Option.some.inj calling)
    exact dispatchToolCall_disciplined (inv.between between)
  | wires at_op effect =>
    refine ⟨by simp, ?_⟩
    intro tc trace rest calling
    obtain ⟨rfl, rfl, rfl⟩ := Calling.mk.inj (Option.some.inj calling)
    exact (inv.calling at_op).performed ⟨effect, rfl⟩
  | returns ended =>
    exact ⟨fun _ => (inv.calling ended).returned.ready, by simp⟩
  | raises ended =>
    exact ⟨fun _ => (inv.calling ended).raised.ready, by simp⟩

theorem proper (inv : s.Disciplined replied) {op : WireOp} {r : op.Answer}
    (moved : Next replied s (.wires op r) s') :
    ∃ call, s.call = some call ∧ Proper call.tc s.link op := by
  cases moved with
  | wires at_op effect => exact ⟨_, at_op, (inv.calling at_op).now_good⟩

theorem exit (inv : s.Disciplined replied) {result : ToolResult}
    (moved : Next replied s (.returns result) s') :
    ∃ call, s.call = some call ∧ Exit replied call.tc s.link call.trace result := by
  cases moved with
  | returns ended =>
    cases (inv.calling ended).returned with
    | returned exit => exact ⟨_, ended, exit⟩

end Session.Disciplined

/-- No send meets a socket that owes a receive, and every call that returns has
its own request's reply or has thrown its socket away. -/
theorem req_discipline {s : Session} {path : List (Session × SessionLabel)}
    (run : Run (Session.Next replied) {} path s) :
    (∀ t request r, (t, .wires (.send request) r) ∈ path → t.link.socket = some .idle) ∧
    ∀ t result, (t, .returns result) ∈ path →
      ∃ call, t.call = some call ∧ Exit replied call.tc t.link call.trace result := by
  have kept := (run.invariant (I := Session.Disciplined replied) (fun _ _ => True)
    (fun t e => (∀ request r, e = .wires (.send request) r → t.link.socket = some .idle) ∧
      ∀ result, e = .returns result →
        ∃ call, t.call = some call ∧ Exit replied call.tc t.link call.trace result)
    (fun inv _ moved => inv.step moved) ?now .initial fun _ _ => trivial).2
  case now =>
    intro t e t' inv _ moved
    constructor
    · rintro request r rfl
      obtain ⟨call, _, proper⟩ := inv.proper moved
      exact proper.1
    · rintro result rfl
      exact inv.exit moved
  constructor
  · intro t request r member
    exact (kept _ member).1 request r rfl
  · intro t result member
    exact (kept _ member).2 result rfl

end

/-! What one step of a session does to the link, for the systems that hold one. -/

/-- A receive that raises has taken the reply, or leaves all as it was. -/
theorem Link.performs_error {replied : Nat → Json → Prop} {l l' : Link} {e : WireException}
    (effect : l.performs replied .recv (.error e) l') :
    (∃ id, l.socket = some (.owes id) ∧ l' = { l with socket := some .idle }) ∨ l' = l := by
  cases e with
  | recursionError => exact .inl effect
  | caught e =>
    cases e with
    | parse => exact .inl effect
    | _ => exact .inr effect

theorem Link.performs_mono {replied more : Nat → Json → Prop}
    (weaker : ∀ id reply, replied id reply → more id reply) {op : WireOp} {r : op.Answer}
    {l l' : Link} (effect : l.performs replied op r l') : l.performs more op r l' := by
  cases op with
  | recv =>
    cases r with
    | ok reply =>
      obtain ⟨id, owing, own, same⟩ := effect
      exact ⟨id, owing, weaker id reply own, same⟩
    | error e =>
      cases e with
      | recursionError => exact effect
      | caught e => cases e <;> exact effect
  | ensureReqSocket | send => cases r <;> exact effect
  | _ => exact effect

theorem Session.Next.mono {replied more : Nat → Json → Prop}
    (weaker : ∀ id reply, replied id reply → more id reply) {s s' : Session} {e : SessionLabel}
    (moved : Next replied s e s') : Next more s e s' := by
  cases moved with
  | clearsOffline between => exact .clearsOffline between
  | authorizes between => exact .authorizes between
  | calls between => exact .calls between
  | wires at_op effect => exact .wires at_op (Link.performs_mono weaker effect)
  | returns ended => exact .returns ended
  | raises ended => exact .raises ended

/-- An operation leaves the authorization, and requests are only ever added, by a send
that went through. -/
theorem Link.performs_keeps {replied : Nat → Json → Prop} {op : WireOp} {r : op.Answer}
    {l l' : Link} (effect : l.performs replied op r l') :
    l'.authorized = l.authorized ∧
      (l'.sent = l.sent ∨ ∃ request, SessionLabel.wires op r = .wires (.send request) (.ok ()) ∧
        l'.sent = l.sent ++ [request]) := by
  cases op with
  | bridgeOffline | currentArmAuthorized =>
    obtain ⟨-, rfl⟩ := effect
    exact ⟨rfl, .inl rfl⟩
  | setBridgeOffline | publishStatus | resetReqSocket =>
    obtain rfl := effect
    exact ⟨rfl, .inl rfl⟩
  | ensureReqSocket =>
    cases r with
    | ok =>
      obtain rfl := effect
      exact ⟨rfl, .inl rfl⟩
    | error e =>
      obtain ⟨-, rfl⟩ := effect
      exact ⟨rfl, .inl rfl⟩
  | send request =>
    cases r with
    | ok =>
      obtain ⟨-, rfl⟩ := effect
      exact ⟨rfl, .inr ⟨request, rfl, rfl⟩⟩
    | error e =>
      obtain rfl := effect
      exact ⟨rfl, .inl rfl⟩
  | recv =>
    cases r with
    | ok reply =>
      obtain ⟨id, -, -, rfl⟩ := effect
      exact ⟨rfl, .inl rfl⟩
    | error e =>
      rcases Link.performs_error effect with ⟨id, -, rfl⟩ | rfl
      · exact ⟨rfl, .inl rfl⟩
      · exact ⟨rfl, .inl rfl⟩

/-! Runs on chosen inputs, with the replies that the transport holds. -/

def Link.performs? (replies : List (Nat × Json)) :
    (op : WireOp) → op.Answer → Link → Option Link
  | .bridgeOffline, r, l => if r = l.offline then some l else none
  | .setBridgeOffline value, _, l => some { l with offline := value }
  | .currentArmAuthorized, r, l => if r = l.authorized then some l else none
  | .publishStatus _, _, l => some l
  | .ensureReqSocket, .ok _, l => some { l with socket := some (l.socket.getD .idle) }
  | .ensureReqSocket, .error _, l => if l.socket = none then some l else none
  | .resetReqSocket, _, l => some { l with socket := none }
  | .send request, .ok _, l =>
    if l.socket = some .idle then
      some { l with socket := some (.owes l.sent.length), sent := l.sent ++ [request] }
    else none
  | .send _, .error _, l => some l
  | .recv, .ok reply, l =>
    match l.socket with
    | some (.owes id) =>
      if (id, reply) ∈ replies then some { l with socket := some .idle } else none
    | _ => none
  | .recv, .error (.caught (.parse _)), l | .recv, .error .recursionError, l =>
    match l.socket with
    | some (.owes _) => some { l with socket := some .idle }
    | _ => none
  | .recv, .error _, l => some l

theorem Link.performs?_sound {replies : List (Nat × Json)} {op : WireOp} {r : op.Answer}
    {l l' : Link} (performed : l.performs? replies op r = some l') :
    l.performs (fun id reply => (id, reply) ∈ replies) op r l' := by
  cases op with
  | bridgeOffline | currentArmAuthorized =>
    simp only [performs?, Option.ite_none_right_eq_some, Option.some.injEq] at performed
    exact ⟨performed.1, performed.2.symm⟩
  | setBridgeOffline | publishStatus | resetReqSocket => exact (Option.some.inj performed).symm
  | ensureReqSocket =>
    cases r with
    | ok => exact (Option.some.inj performed).symm
    | error e =>
      simp only [performs?, Option.ite_none_right_eq_some, Option.some.injEq] at performed
      exact ⟨performed.1, performed.2.symm⟩
  | send request =>
    cases r with
    | ok =>
      simp only [performs?, Option.ite_none_right_eq_some, Option.some.injEq] at performed
      exact ⟨performed.1, performed.2.symm⟩
    | error e => exact (Option.some.inj performed).symm
  | recv =>
    cases r with
    | ok reply =>
      simp only [performs?] at performed
      split at performed
      · rename_i id owing
        simp only [Option.ite_none_right_eq_some, Option.some.injEq] at performed
        exact ⟨id, owing, performed.1, performed.2.symm⟩
      · cases performed
    | error e =>
      have taken (idle : (match l.socket with
          | some (.owes _) => some { l with socket := some .idle }
          | _ => none) = some l') :
          ∃ id, l.socket = some (.owes id) ∧ l' = { l with socket := some .idle } := by
        split at idle
        · rename_i id owing
          exact ⟨id, owing, (Option.some.inj idle).symm⟩
        · cases idle
      cases e with
      | recursionError => exact taken performed
      | caught e =>
        cases e with
        | again | zmq => exact (Option.some.inj performed).symm
        | parse => exact taken performed

def Session.step? (replies : List (Nat × Json)) (s : Session) : SessionLabel → Option Session
  | .clearsOffline =>
    if s.call.isNone then some { s with link := { s.link with offline := false } } else none
  | .authorizes value =>
    if s.call.isNone then some { s with link := { s.link with authorized := value } } else none
  | .calls tc =>
    if s.call.isNone then some { s with call := some ⟨tc, [], dispatchToolCall tc⟩ } else none
  | .wires op r => do
    let call ← s.call
    let rest ← Program.resume? op r call.rest
    let link ← s.link.performs? replies op r
    return { link, call := some ⟨call.tc, call.trace ++ [⟨op, r⟩], rest⟩ }
  | .returns result => do
    let call ← s.call
    match call.rest with
    | .done built => if built = result then some { s with call := none } else none
    | _ => none
  | .raises e => do
    let call ← s.call
    match call.rest with
    | .raise e' => if e' = e then some { s with call := none } else none
    | _ => none

theorem Session.step?_sound {replies : List (Nat × Json)} {s s' : Session} {e : SessionLabel}
    (moved : s.step? replies e = some s') :
    Session.Next (fun id reply => (id, reply) ∈ replies) s e s' := by
  cases e with
  | clearsOffline =>
    simp only [step?, Option.ite_none_right_eq_some, Option.isNone_iff_eq_none,
      Option.some.injEq] at moved
    obtain ⟨between, rfl⟩ := moved
    exact .clearsOffline between
  | authorizes value =>
    simp only [step?, Option.ite_none_right_eq_some, Option.isNone_iff_eq_none,
      Option.some.injEq] at moved
    obtain ⟨between, rfl⟩ := moved
    exact .authorizes between
  | calls tc =>
    simp only [step?, Option.ite_none_right_eq_some, Option.isNone_iff_eq_none,
      Option.some.injEq] at moved
    obtain ⟨between, rfl⟩ := moved
    exact .calls between
  | wires op r =>
    simp only [step?, Option.bind_eq_bind, Option.bind_eq_some_iff, Option.pure_def,
      Option.some.injEq] at moved
    obtain ⟨⟨tc, trace, p⟩, calling, rest, resumed, link, performed, rfl⟩ := moved
    obtain ⟨next, rfl, rfl⟩ := Program.resume?_eq_some resumed
    exact .wires calling (Link.performs?_sound performed)
  | returns result =>
    simp only [step?, Option.bind_eq_bind, Option.bind_eq_some_iff] at moved
    obtain ⟨⟨tc, trace, p⟩, calling, moved⟩ := moved
    cases p with
    | done built =>
      simp only [Option.ite_none_right_eq_some, Option.some.injEq] at moved
      obtain ⟨rfl, rfl⟩ := moved
      exact .returns calling
    | _ => cases moved
  | raises e =>
    simp only [step?, Option.bind_eq_bind, Option.bind_eq_some_iff] at moved
    obtain ⟨⟨tc, trace, p⟩, calling, moved⟩ := moved
    cases p with
    | raise e' =>
      simp only [Option.ite_none_right_eq_some, Option.some.injEq] at moved
      obtain ⟨rfl, rfl⟩ := moved
      exact .raises calling
    | _ => cases moved

def hold : ToolCall := { requestId := "1", name := "hold" }

def heldReply : Json := .object [("request_id", .string "1"), ("ok", .boolean true),
  ("error", .null), ("data", .null)]

/-- A call that is answered, a call that times out, and a call that is refused. -/
def refusalLabels : List SessionLabel := [
  .calls hold,
  .wires .bridgeOffline false,
  .wires .ensureReqSocket (.ok ()),
  .wires (.send (request hold [])) (.ok ()),
  .wires .recv (.ok heldReply),
  .wires (.setBridgeOffline false) (),
  .returns (ToolResult.ofReply hold heldReply),
  .calls hold,
  .wires .bridgeOffline false,
  .wires .ensureReqSocket (.ok ()),
  .wires (.send (request hold [])) (.ok ()),
  .wires .recv (.error (.caught .again)),
  .wires .resetReqSocket (),
  .wires (.setBridgeOffline true) (),
  .wires (.publishStatus "bridge_offline") (),
  .returns (failure hold "timeout"),
  .calls hold,
  .wires .bridgeOffline true,
  .wires (.publishStatus "bridge_offline") (),
  .returns (failure hold "bridge_offline")]

def refusedQuietly (p : Session × SessionLabel) : Bool :=
  match p.2, p.1.call with
  | .returns result, some call =>
    result = failure call.tc "bridge_offline" && p.1.link.offline && !zmqFailed call.trace
  | _, _ => false

theorem refusal_replays : ∃ path s,
    Run (Session.Next fun id reply => (id, reply) ∈ [(0, heldReply)]) {} path s ∧
      ∃ p ∈ path, refusedQuietly p = true := by
  have found : (replay (Session.step? [(0, heldReply)]) {} refusalLabels).any
      (fun ran => ran.1.any refusedQuietly) = true := by
    decide +kernel
  obtain ⟨⟨path, s⟩, ran, refused⟩ := (Option.any_eq_true _ _).mp found
  exact ⟨path, s, .of_replay Session.step?_sound ran, List.any_eq_true.mp refused⟩

theorem req_discipline_refusal : ∃ path s,
    Run (Session.Next fun id reply => (id, reply) ∈ [(0, heldReply)]) {} path s ∧
      (∃ p ∈ path, refusedQuietly p = true) ∧
      (∀ t request r, (t, .wires (.send request) r) ∈ path → t.link.socket = some .idle) ∧
      ∀ t result, (t, .returns result) ∈ path → ∃ call, t.call = some call ∧
        Exit (fun id reply => (id, reply) ∈ [(0, heldReply)]) call.tc t.link call.trace result := by
  obtain ⟨path, s, run, found⟩ := refusal_replays
  exact ⟨path, s, run, found, req_discipline run⟩

/-- A call whose reply nests too deep for `json.loads`. -/
def deepReplyLabels : List SessionLabel := [
  .calls hold,
  .wires .bridgeOffline false,
  .wires .ensureReqSocket (.ok ()),
  .wires (.send (request hold [])) (.ok ()),
  .wires .recv (.error .recursionError),
  .raises .recursionError]

def raisesKeeping (p : Session × SessionLabel) : Bool :=
  match p.2 with
  | .raises _ => p.1.link.socket.isSome
  | _ => false

theorem deepReply_replays : ∃ path s, Run (Session.Next fun _ _ => False) {} path s ∧
    ∃ p ∈ path, raisesKeeping p = true := by
  have found : (replay (Session.step? []) {} deepReplyLabels).any
      (fun ran => ran.1.any raisesKeeping) = true := by
    decide +kernel
  obtain ⟨⟨path, s⟩, ran, kept⟩ := (Option.any_eq_true _ _).mp found
  have run := Run.of_replay Session.step?_sound ran
  simp only [List.not_mem_nil] at run
  exact ⟨path, s, run, List.any_eq_true.mp kept⟩

/-- A refused call fails with the flag set, and no ZMQ error of its own; and one that a
RecursionError ends keeps its socket. -/
theorem failed_exits_differ :
    (¬ ∀ (replied : Nat → Json → Prop) (path : List (Session × SessionLabel)) (s : Session),
      Run (Session.Next replied) {} path s →
      ∀ t call text, (t, .returns (failure call.tc text)) ∈ path → t.call = some call →
        t.link.socket = none ∧ (t.link.offline = true ↔ zmqFailed call.trace = true)) ∧
    ¬ ∀ (replied : Nat → Json → Prop) (path : List (Session × SessionLabel)) (s : Session),
      Run (Session.Next replied) {} path s →
      ∀ t e, (t, .raises e) ∈ path → t.link.socket = none := by
  constructor
  · intro claimed
    obtain ⟨path, s, run, ⟨t, e⟩, member, quiet⟩ := refusal_replays
    unfold refusedQuietly at quiet
    split at quiet
    · rename_i result call left calling
      obtain rfl := left
      simp only [Bool.and_eq_true, decide_eq_true_eq, Bool.not_eq_true'] at quiet
      obtain ⟨⟨rfl, offline⟩, smooth⟩ := quiet
      have set := (claimed _ path s run t call _ member calling).2.mp offline
      rw [smooth] at set
      cases set
    · cases quiet
  · intro claimed
    obtain ⟨path, s, run, ⟨t, e⟩, member, kept⟩ := deepReply_replays
    unfold raisesKeeping at kept
    split at kept
    · rename_i raised left
      obtain rfl := left
      rw [claimed _ path s run t raised member] at kept
      cases kept
    · cases kept

end Lexaire.Orchestrator
