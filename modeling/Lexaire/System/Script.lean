import Lexaire.System.Machine

/-! Runs on chosen inputs: each label decides what it leads to. -/
namespace Lexaire.System
open Atomic Transition Lexaire.Orchestrator
open Lexaire.Bridge (SafetyState Outside Parsed handle heartbeatPoll)

def linkPerforms? : (op : Orchestrator.Op) → op.Answer → Link → Option Link
  | .clearBridgeOffline, _, l => some { l with offline := false }
  | .bridgeOffline, r, l => if r = l.offline then some l else none
  | .setArmAuthorized value, _, l => some { l with authorized := value }
  | _, _, l => some l

theorem linkPerforms?_sound {op : Orchestrator.Op} {r : op.Answer} {l l' : Link}
    (performed : linkPerforms? op r l = some l') : linkPerforms op l r l' := by
  cases op with
  | bridgeOffline =>
    simp only [linkPerforms?, Option.ite_none_right_eq_some, Option.some.injEq] at performed
    exact ⟨performed.1, performed.2.symm⟩
  | _ => exact (Option.some.inj performed).symm

def carried (request : Json) : Parsed → Bool
  | .value j => j = request
  | .failed _ _ => true

theorem carried_sound {request : Json} {parsed : Parsed} (yes : carried request parsed = true) :
    Carried request parsed := by
  cases parsed with
  | value j =>
    have same : j = request := of_decide_eq_true yes
    exact same
  | failed what utf8 => trivial

/-- What the main thread has left after its call returned. -/
def resumeCall (result : ToolResult) : Orchestrator.Code Unit → Option (Orchestrator.Code Unit)
  | .step (.dispatchToolCall _) next => some (next result)
  | _ => none

def watchAnswers? : (op : Bridge.Op) → SafetyState → op.Answer → Bool
  | .loadArmedWithVoice, s, r => r = s.armedWithVoice
  | .loadAborted, s, r => r = s.aborted
  | _, _, _ => true

theorem watchAnswers?_sound {op : Bridge.Op} {s : SafetyState} {r : op.Answer}
    (yes : watchAnswers? op s r = true) : watchAnswers op s r := by
  cases op with
  | loadArmedWithVoice =>
    simp only [watchAnswers?, decide_eq_true_eq] at yes
    exact yes
  | loadAborted =>
    simp only [watchAnswers?, decide_eq_true_eq] at yes
    exact yes
  | _ => trivial

def step? (cfg : Settings) (s : State) : Label → Option State
  | .takes cmd =>
    if s.task.isNone then some { s with task := some ⟨cmd, onCommand cfg.orchestrator cmd⟩ }
    else none
  | .performs op r => do
    let task ← s.task
    let rest ← Program.resume? op r task.rest
    let link ← linkPerforms? op r s.session.link
    if isCall op then none
    else some { s with task := some ⟨task.cmd, rest⟩, session := { s.session with link } }
  | .calls tc => do
    let task ← s.task
    match task.rest with
    | .step (.dispatchToolCall tc') _ =>
      if tc = tc' then do
        let session ← s.session.step? s.replies (.calls tc)
        some { s with session }
      else none
    | _ => none
  | .wires op r => do
    let session ← s.session.step? s.replies (.wires op r)
    some { s with session }
  | .returns result => do
    let task ← s.task
    let rest ← resumeCall result task.rest
    let session ← s.session.step? s.replies (.returns result)
    some { s with task := some ⟨task.cmd, rest⟩, session }
  | .finishes =>
    match s.task with
    | some ⟨_, .done ()⟩ => some { s with task := none }
    | _ => none
  | .handles id parsed o => do
    let request ← s.session.link.sent[id]?
    let out := (handle cfg.bridge.env cfg.bridge.ctx parsed).run o.answer s.latches
    match out.result with
    | .ok result =>
      if id ∉ s.handled ∧ carried request parsed then
        some { s with
          latches := out.state
          handled := id :: s.handled
          replies := (id, Bridge.reply parsed result) :: s.replies }
      else none
    | .error _ => none
  | .reports armed => some { s with latches := armedReported armed s.latches }
  | .polls =>
    match s.watchdog with
    | .done w => some { s with watchdog := heartbeatPoll cfg.bridge w }
    | _ => none
  | .watches op r => do
    let rest ← Program.resume? op r s.watchdog
    if op.storesLatch = false ∧ watchAnswers? op s.latches r then some { s with watchdog := rest }
    else none

theorem step?_sound {cfg : Settings} {s s' : State} {e : Label} (moved : step? cfg s e = some s') :
    Next cfg s e s' := by
  cases e with
  | takes cmd =>
    simp only [step?, Option.ite_none_right_eq_some, Option.isNone_iff_eq_none,
      Option.some.injEq] at moved
    obtain ⟨idle, rfl⟩ := moved
    exact .takes idle
  | performs op r =>
    simp only [step?, Option.bind_eq_bind, Option.bind_eq_some_iff,
      Option.ite_none_left_eq_some, Option.some.injEq] at moved
    obtain ⟨⟨cmd, p⟩, taken, rest, resumed, link, performed, own, rfl⟩ := moved
    obtain ⟨next, rfl, rfl⟩ := Program.resume?_eq_some resumed
    exact .performs taken (by simpa using own) (linkPerforms?_sound performed)
  | calls tc =>
    simp only [step?, Option.bind_eq_bind, Option.bind_eq_some_iff] at moved
    obtain ⟨⟨cmd, p⟩, taken, moved⟩ := moved
    split at moved
    · rename_i tc' next at_op
      obtain rfl := at_op
      simp only [Option.ite_none_right_eq_some, Option.bind_eq_some_iff, Option.some.injEq] at moved
      obtain ⟨rfl, session, called, rfl⟩ := moved
      exact .calls taken (Session.step?_sound called)
    · cases moved
  | wires op r =>
    simp only [step?, Option.bind_eq_bind, Option.bind_eq_some_iff, Option.some.injEq] at moved
    obtain ⟨session, wired, rfl⟩ := moved
    exact .wires (Session.step?_sound wired)
  | returns result =>
    simp only [step?, Option.bind_eq_bind, Option.bind_eq_some_iff, Option.some.injEq] at moved
    obtain ⟨⟨cmd, p⟩, taken, rest, resumed, session, returned, rfl⟩ := moved
    unfold resumeCall at resumed
    split at resumed
    · rename_i tc next at_op
      obtain rfl := at_op
      obtain rfl := Option.some.inj resumed
      exact .returns taken (Session.step?_sound returned)
    · cases resumed
  | finishes =>
    simp only [step?] at moved
    split at moved
    · rename_i cmd ended
      obtain rfl := Option.some.inj moved
      exact .finishes ended
    · cases moved
  | handles id parsed o =>
    simp only [step?, Option.bind_eq_bind, Option.bind_eq_some_iff] at moved
    obtain ⟨request, sent, moved⟩ := moved
    split at moved
    · rename_i result answered
      simp only [Option.ite_none_right_eq_some, Option.some.injEq] at moved
      obtain ⟨⟨fresh, same⟩, rfl⟩ := moved
      exact .handles sent fresh (carried_sound same) answered
    · cases moved
  | reports armed =>
    obtain rfl := Option.some.inj moved
    exact .reports
  | polls =>
    simp only [step?] at moved
    split at moved
    · rename_i w slept
      obtain rfl := Option.some.inj moved
      exact .polls slept
    · cases moved
  | watches op r =>
    simp only [step?, Option.bind_eq_bind, Option.bind_eq_some_iff, Option.ite_none_right_eq_some,
      Option.some.injEq] at moved
    obtain ⟨rest, resumed, ⟨reads, answered⟩, rfl⟩ := moved
    obtain ⟨next, at_op, rfl⟩ := Program.resume?_eq_some resumed
    exact .watches at_op reads (watchAnswers?_sound answered)

theorem run_of_script {cfg : Settings} {s s' : State} {path : Path} {script : List Label}
    (replayed : replay (step? cfg) s script = some (path, s')) : Run (Next cfg) s path s' :=
  Run.of_replay step?_sound replayed

/-- A call up to its send. -/
def sendLabels (tc : ToolCall) (args : List (String × Json)) (authorized : Bool) : List Label :=
  [.calls tc, .wires .bridgeOffline false] ++
  (if tc.name = "arm" then [.wires .currentArmAuthorized authorized] else []) ++
  [.wires .ensureReqSocket (.ok ()), .wires (.send (request tc args)) (.ok ())]

/-- The rest of a call that the bridge accepts. -/
def acceptedLabels (tc : ToolCall) : List Label :=
  let reply := (Bridge.ok tc.requestId).toJson
  [.wires .recv (.ok reply), .wires (.setBridgeOffline false) (),
    .returns (ToolResult.ofReply tc reply)]

/-- The rest of a call that nobody answers. -/
def timeoutLabels (tc : ToolCall) : List Label :=
  [.wires .recv (.error (.caught .again)), .wires .resetReqSocket (), .wires (.setBridgeOffline true) (),
    .wires (.publishStatus "bridge_offline") (), .returns (failure tc "timeout")]

/-- A command up to its first decision. -/
def decisionLabels (cmd : VoiceCommand) (spoken : Bool) (decision : VlmDecision) : List Label :=
  let mission : OrchestratorMission := { goalText := cmd.text }
  [.takes cmd, .performs .clearBridgeOffline (), .performs .preemptClear (),
    .performs (.setArmAuthorized spoken) (), .performs (.newMission cmd.text) (),
    .performs .stopIsSet false, .performs .preemptIsSet false, .performs .queueEmpty true,
    .performs .mission mission, .performs (.publishStatus "thinking") (),
    .performs (.vlmSubmit { userCommand := cmd.text, mission }) (), .performs .vlmWait (),
    .performs .preemptIsSet false, .performs .stopIsSet false, .performs .vlmResult (.ok decision),
    .performs (.publishStatus "executing") ()]

/-- The signals before each call of a batch. -/
def clearLabels : List Label := [.performs .stopIsSet false, .performs .preemptIsSet false]

/-- An engine for plain text; it takes no two letters for the same. -/
def plainAlphabet : Text.Alphabet where
  isWord c := c.isAlphanum || c == '_'
  same c d := c == d

theorem plainAlphabet_letter {p : Char} (word : plainAlphabet.isWord p = true) :
    plainAlphabet.Letter p := by
  intro c same
  rwa [eq_of_beq same]

def plainSettings : Settings := { orchestrator := { alphabet := plainAlphabet } }

end Lexaire.System
