import Lexaire.System.Requests
import Lexaire.System.Script

/-! Spoken-arm authorisation from the operator's words to the vehicle. An arm
gets past the closed latch only when its request is confirmed, and only the
command's text confirms it; the latch remembers such an arm until the session ends. -/
namespace Lexaire.System
open Atomic Transition Text Lexaire.Orchestrator
open Lexaire.Bridge (Outside Parsed handle lossCommand Disarms Arms)

/-- What a step does by handling a request. -/
def Performs (cfg : Settings) (p : State × Label) (op : Bridge.Op) : Prop :=
  ∃ id parsed o, p.2 = .handles id parsed o ∧
    op ∈ ((handle cfg.bridge.env cfg.bridge.ctx parsed).run o.answer p.1.latches).performed

def Watchful (p : State × Label) (op : Bridge.Op) : Prop := ∃ r, p.2 = .watches op r

/-- The methods of MAVSDK that a step invokes, for a request or on the watchdog's own account. -/
def Invokes (cfg : Settings) (p : State × Label) (op : Bridge.Op) : Prop :=
  Performs cfg p op ∨ Watchful p op

/-- The step handles a request that was sent for an arm call, while the
orchestrator processed a command that says `arm`. -/
def Authorised (cfg : Settings) (before : Path) (p : State × Label) : Prop :=
  ∃ id parsed o cmd tc request, p.2 = .handles id parsed o ∧ Sent before id cmd tc request ∧
    tc.name = "arm" ∧ cfg.orchestrator.alphabet.HasWord "arm".toList cmd.text.toList

/-- An arm call is handled, and the vehicle arms. -/
def ArmSucceeds (cfg : Settings) (p : State × Label) : Prop :=
  ∃ id parsed o, p.2 = .handles id parsed o ∧
    Arms cfg.bridge.env cfg.bridge.ctx parsed o p.1.latches

/-- A successful disarm call or an armed=false callback. -/
def EndsSession (cfg : Settings) (p : State × Label) : Prop :=
  p.2 = .reports false ∨ ∃ id parsed o, p.2 = .handles id parsed o ∧
    Disarms cfg.bridge.env cfg.bridge.ctx parsed o p.1.latches

/-- An authorised arm succeeded, and the session has not ended since. -/
def SpokenSession (cfg : Settings) (path : Path) : Prop :=
  ∃ before p after, path = before ++ p :: after ∧ Authorised cfg before p ∧ ArmSucceeds cfg p ∧
    ∀ q ∈ after, ¬ EndsSession cfg q

/-- The engine takes the outer letters of `arm`, in either case, for word characters. -/
def Settings.Lettered (cfg : Settings) : Prop :=
  cfg.orchestrator.alphabet.Letter 'a' ∧ cfg.orchestrator.alphabet.Letter 'm'

/-- The watchdog has no other command than the one that is configured. -/
theorem watchful_command {cfg : Settings} {path before after : Path} {s : State} {p : State × Label}
    {op : Bridge.Op} (run : Run (Next cfg) {} path s) (split : path = before ++ p :: after)
    (watchful : Watchful p op) (command : op.isCommand = true) :
    op = .action (lossCommand cfg.bridge.hbAction) := by
  obtain ⟨t, e⟩ := p
  obtain ⟨_, to_t, moved⟩ := run.split split
  obtain ⟨r, rfl⟩ := watchful
  cases moved with
  | watches at_op reads answered =>
    have all := watchdog_watches to_t
    rw [at_op] at all
    exact all.1.2 command

/-- So an arm and a takeoff are only ever asked for. -/
theorem performs_of_invokes {cfg : Settings} {path before after : Path} {s : State}
    {p : State × Label} {op : Bridge.Op} (run : Run (Next cfg) {} path s)
    (split : path = before ++ p :: after) (invoked : Invokes cfg p op)
    (command : op.isCommand = true) (other : ∀ action, op ≠ .action (lossCommand action)) :
    Performs cfg p op := by
  rcases invoked with performs | watchful
  · exact performs
  · exact absurd (watchful_command run split watchful command) (other _)

theorem fromJson_request (tc : ToolCall) (args : List (String × Json)) :
    Bridge.ToolCall.fromJson (request tc args) = .ok ⟨tc.requestId, tc.name, .object args⟩ := rfl

variable {cfg : Settings} {path : Path} {s s' : State} {e : Label}

/-- A confirmed arm among the orchestrator's requests is an authorised one. -/
theorem authorised_of_confirmed (lettered : cfg.Lettered) (inv : Coherent cfg path s) {id : Nat}
    {request : Json} {parsed : Parsed} {o : Outside} {c : Bridge.ToolCall}
    (sent : s.session.link.sent[id]? = some request) (carried : Carried request parsed)
    (call : parsed.Call c) (arm : c.name = "arm")
    (confirmed : c.args.valueBool "voice_confirmed" false = .ok true) :
    Authorised cfg path (s, .handles id parsed o) := by
  obtain ⟨cmd, tc, handed, args, rfl, spoken⟩ := inv.sent sent
  obtain ⟨j, rfl, read⟩ := call
  obtain rfl := carried
  rw [fromJson_request] at read
  obtain rfl := Except.ok.inj read
  have said : cfg.orchestrator.alphabet.search "arm" cmd.text = true := by
    simpa [Json.valueBool, Json.value, spoken arm, Json.bool?] using confirmed
  have word := (Alphabet.search_iff_hasWord (a := cfg.orchestrator.alphabet) (by rfl) (by rfl)
    lettered.1 lettered.2).mp said
  exact ⟨id, .value _, o, cmd, tc, _, rfl, handed, arm, word⟩

theorem SpokenSession.snoc (session : SpokenSession cfg path)
    (kept : ¬ EndsSession cfg (s, e)) : SpokenSession cfg (path ++ [(s, e)]) := by
  obtain ⟨before, p, after, rfl, authorised, succeeded, quiet⟩ := session
  refine ⟨before, p, after ++ [(s, e)], by simp, authorised, succeeded, ?_⟩
  intro q member
  rcases List.mem_append.mp member with earlier | last
  · exact quiet q earlier
  · obtain rfl := List.mem_singleton.mp last
    exact kept

/-- While the latch is set, an authorised arm is in force. -/
theorem latch_step (lettered : cfg.Lettered) (inv : Coherent cfg path s)
    (latch : s.latches.armedWithVoice = true → SpokenSession cfg path) (moved : Next cfg s e s')
    (set : s'.latches.armedWithVoice = true) : SpokenSession cfg (path ++ [(s, e)]) := by
  cases moved with
  | @handles id request parsed o result sent fresh carried answered =>
    obtain ⟨kept, earlier | arms⟩ := Bridge.handle_armedWithVoice set
    · refine (latch earlier).snoc ?_
      rintro (reported | ⟨id, parsed, o, same, disarms⟩)
      · cases reported
      · cases same
        exact kept disarms
    · have held := arms
      obtain ⟨c, call, arm, confirmed, -⟩ := held
      exact ⟨path, _, [], rfl, authorised_of_confirmed lettered inv sent carried call arm confirmed,
        ⟨_, _, _, rfl, arms⟩, by simp⟩
  | @reports armed =>
    cases armed with
    | false => cases set
    | true =>
      refine (latch set).snoc ?_
      rintro (reported | ⟨id, parsed, o, same, disarms⟩)
      · cases reported
      · cases same
  | _ =>
    refine (latch set).snoc ?_
    rintro (reported | ⟨id, parsed, o, same, disarms⟩)
    · cases reported
    · cases same

theorem latch_reached (lettered : cfg.Lettered) (run : Run (Next cfg) {} path s)
    (set : s.latches.armedWithVoice = true) : SpokenSession cfg path := by
  have kept := run.invariant_history
    (I := fun path s => Coherent cfg path s ∧
      (s.latches.armedWithVoice = true → SpokenSession cfg path))
    (fun _ _ => True)
    (fun inv _ moved => ⟨inv.1.step moved, latch_step lettered inv.1 inv.2 moved⟩)
    ⟨.initial, by simp⟩ fun _ _ _ _ => trivial
  exact kept.2 set

/-- In every run: an arm behind a closed latch and every takeoff go back to a
command that says `arm`, and what a request says of it is that command's alone. -/
theorem spoken_arm (required : cfg.bridge.env.requireSpokenArm = true) (lettered : cfg.Lettered)
    (run : Run (Next cfg) {} path s) :
    (∀ before p after, path = before ++ p :: after →
      (Invokes cfg p (.action .arm) → p.1.latches.armedWithVoice = false →
        Authorised cfg before p) ∧
      (Invokes cfg p (.action .takeoff) → SpokenSession cfg before)) ∧
    ∀ t request r, (t, .wires (.send request) r) ∈ path →
      ∃ cmd tc next, t.task = some ⟨cmd, .step (.dispatchToolCall tc) next⟩ ∧
        Spoken cfg.orchestrator cmd tc request := by
  constructor
  · intro before p after split
    obtain ⟨s', earlier, moved⟩ := run.split split
    have inv := Coherent.reached earlier
    obtain ⟨t, e⟩ := p
    constructor
    · intro invoked closed
      obtain ⟨id, parsed, o, rfl, performed⟩ :=
        performs_of_invokes run split invoked rfl (by rintro (_ | _) ⟨⟩)
      obtain ⟨c, call, passes, tool⟩ := Bridge.handle_command rfl performed
      have arm : c.name = "arm" := by simpa [Bridge.Op.ofTool] using tool
      cases moved with
      | handles sent fresh carried answered =>
        exact authorised_of_confirmed lettered inv sent carried call arm
          (Bridge.passes_arm arm required closed passes)
    · intro invoked
      obtain ⟨id, parsed, o, rfl, performed⟩ :=
        performs_of_invokes run split invoked rfl (by rintro (_ | _) ⟨⟩)
      obtain ⟨c, call, passes, tool⟩ := Bridge.handle_command rfl performed
      have takeoff : c.name = "takeoff" := by simpa [Bridge.Op.ofTool] using tool
      exact latch_reached lettered earlier (Bridge.passes_takeoff takeoff required passes)
  · intro t request r member
    obtain ⟨before, after, split⟩ := List.append_of_mem member
    obtain ⟨s', earlier, moved⟩ := run.split split
    cases moved with
    | wires moved => exact (Coherent.reached earlier).sending moved

/-- The operator says `arm`; the VLM asks for an arm, unconfirmed, and a takeoff. -/
def takeoffLabels : List Label :=
  let cmd : VoiceCommand := { text := "please arm and climb" }
  let unconfirmed : List (String × Json) := [("voice_confirmed", .boolean false)]
  let arm : ToolCall := { requestId := "1", name := "arm", args := unconfirmed }
  let confirmed : List (String × Json) := [("voice_confirmed", .boolean true)]
  let takeoff : ToolCall :=
    { requestId := "2", name := "takeoff", args := [("altitude_m", .integer 2)] }
  let armed : ToolResult := ToolResult.ofReply arm (Bridge.ok "1").toJson
  decisionLabels cmd true { thought := "", toolCalls := [arm, takeoff] } ++ clearLabels ++
  sendLabels arm confirmed true ++
  [.handles 0 (.value (request arm confirmed)) .nominal] ++ acceptedLabels arm ++
  [.performs (.record (executedStep arm armed) true) ()] ++ clearLabels ++
  sendLabels takeoff takeoff.args true ++
  [.handles 1 (.value (request takeoff takeoff.args)) .nominal]

def performs (cfg : Settings) (op : Bridge.Op) (p : State × Label) : Bool :=
  match p.2 with
  | .handles _ parsed o =>
    op ∈ ((handle cfg.bridge.env cfg.bridge.ctx parsed).run o.answer p.1.latches).performed
  | _ => false

theorem performs_sound {op : Bridge.Op} {p : State × Label} (yes : performs cfg op p = true) :
    Performs cfg p op := by
  unfold performs at yes
  split at yes
  · rename_i id parsed o handled
    exact ⟨id, parsed, o, handled, of_decide_eq_true yes⟩
  · cases yes

theorem spoken_arm_takeoff : ∃ path s before p after, Run (Next plainSettings) {} path s ∧
    path = before ++ p :: after ∧ Invokes plainSettings p (.action .takeoff) ∧
    SpokenSession plainSettings before := by
  have found : (replay (step? plainSettings) {} takeoffLabels).any
      (fun ran => ran.1.any (performs plainSettings (.action .takeoff))) = true := by
    decide +kernel
  obtain ⟨⟨path, s⟩, ran, some_step⟩ := (Option.any_eq_true _ _).mp found
  obtain ⟨p, member, invoked⟩ := List.any_eq_true.mp some_step
  obtain ⟨before, after, split⟩ := List.append_of_mem member
  have run := run_of_script ran
  have invoked : Invokes plainSettings p (.action .takeoff) := .inl (performs_sound invoked)
  refine ⟨path, s, before, p, after, run, split, invoked, ?_⟩
  have lettered : plainSettings.Lettered :=
    ⟨plainAlphabet_letter (by decide), plainAlphabet_letter (by decide)⟩
  exact ((spoken_arm rfl lettered run).1 before p after split).2 invoked

end Lexaire.System
