import Lexaire.Bridge.Results
import Lexaire.Orchestrator.Tools
import Lexaire.Orchestrator.Wire

/-! The contract between the tool schemas and the bridge. A call whose arguments fit its tool's
schema is never faulted for its form, whatever the latches and the vehicle do; one whose
arguments do not fit is refused before the vehicle hears of it. -/
namespace Lexaire.System
open Atomic Text Lexaire.Orchestrator
open Lexaire.Bridge

/-- How an error begins that faults a call's form. -/
def formFaults : List String :=
  ["bad_request:", "unknown_tool:", "missing", "wrong_type:", "safety_denied: wrong_type:"]

def faultsForm (error : String) : Bool := formFaults.any (startsWith · error)

/-- A result, and one that does not fault the call's form. -/
def Accepting : Except String Bridge.ToolResult → Prop
  | .ok r => faultsForm r.error = false
  | .error _ => False

def Refusing : Except String Bridge.ToolResult → Prop
  | .ok r => r.ok = false
  | .error _ => False

/-- What the gate may find against a call of the right form. -/
def limitReasons : List String := ["abort_active", "spoken_arm_required", "altitude_non_positive",
  "altitude_exceeds_max", "altitude_below_home", "geofence_breach", "velocity_exceeds_max"]

theorem limitReasons_accepting : ∀ reason ∈ limitReasons, faultsForm ("safety_denied: " ++ reason) = false := by
  decide

/-- A decision that holds only a limit against the call. -/
def Limited (d : SafetyDecision) : Prop := d.allow = false → d.reason ∈ limitReasons

theorem limited_allow : Limited {} := by
  rintro ⟨⟩

theorem limited_deny {reason : String} (limit : reason ∈ limitReasons) : Limited (deny reason) :=
  fun _ => limit

/-! ## The gate -/

section
variable {env : SafetyEnvelope} {args : Json}

theorem checkTakeoff_limited {altitude : Float} (read : Reads args "altitude_m" (some altitude)) :
    Limited (checkTakeoff args env) := by
  unfold checkTakeoff
  rw [asDouble_of_reads read]
  split
  · next absent => cases absent
  · split
    · exact limited_deny (by decide)
    · split
      · exact limited_deny (by decide)
      · exact limited_allow

theorem checkDown_limited {d : Float} (read : Reads args "d" (some d)) : Limited (checkDown args env) := by
  obtain ⟨v, present, number⟩ := reads_some_iff.mp read
  simp only [checkDown, present, number]
  split
  · exact limited_deny (by decide)
  · split
    · exact limited_deny (by decide)
    · exact limited_allow

theorem checkGotoNed_limited {n e d : Float} (north : Reads args "n" (some n))
    (east : Reads args "e" (some e)) (down : Reads args "d" (some d)) :
    Limited (checkGotoNed args env) := by
  simp only [checkGotoNed, asDouble_of_reads north, asDouble_of_reads east]
  split
  · exact checkDown_limited down
  · split
    · exact limited_deny (by decide)
    · exact limited_allow

theorem checkSetVelocityNed_limited {vx vy vz : Option Float} (north : Reads args "vx" vx)
    (east : Reads args "vy" vy) (down : Reads args "vz" vz) :
    Limited (checkSetVelocityNed args env) := by
  simp only [checkSetVelocityNed, asDouble_of_reads north, asDouble_of_reads east,
    asDouble_of_reads down]
  split
  · exact limited_deny (by decide)
  · exact limited_allow

/-- Wherever the latches move, the gate decides by them or by the limits; it reads
`voice_confirmed` of an arm alone. -/
theorem checkTool_decides {name : String} (readable : name = "arm" →
    ∃ b, args.valueBool "voice_confirmed" false = .ok b) :
    (checkTool name args env).Ends fun result => ∃ d, result = .ok d ∧
      (d = deny "abort_active" ∨ d = deny "spoken_arm_required" ∨ d = checkLimits name args env) := by
  have missing : (spokenArmMissing name args env).Ends fun result => ∃ b, result = .ok b := by
    unfold spokenArmMissing
    simp only [Program.ends_ite, Bool.and_eq_true, beq_iff_eq, loadArmedWithVoice_bind,
      Program.ends_step]
    constructor
    · rintro ⟨arm, -⟩ latched
      obtain ⟨b, read⟩ := readable arm
      constructor
      · exact fun _ => ⟨false, rfl⟩
      · intro _
        rw [read]
        exact ⟨!b, rfl⟩
    · exact fun _ => ⟨fun _ latched => ⟨!latched, rfl⟩, fun _ => ⟨false, rfl⟩⟩
  intro aborted
  change Program.Ends _ (if _ then _ else _)
  rw [Program.ends_ite]
  constructor
  · exact fun _ => ⟨_, rfl, .inl rfl⟩
  · intro _
    apply missing.bind
    · rintro spoken -
      rw [Program.ends_ite]
      exact ⟨fun _ => ⟨_, rfl, .inr (.inl rfl)⟩, fun _ => ⟨_, rfl, .inr (.inr rfl)⟩⟩
    · rintro e ⟨b, ⟨⟩⟩

end

/-! ## The handlers -/

section
variable {requestId : String} {ctx : FlightCtx}

theorem accepting_ok (data : Json) : Accepting (.ok (Bridge.ok requestId data)) := by
  change faultsForm "" = false
  decide

theorem accepting_err {error : String} (other : faultsForm error = false) :
    Accepting (.ok (err requestId error)) := other

theorem accepting_actionReply (r : ActionResult) : Accepting (.ok (actionReply requestId r)) := by
  unfold actionReply
  split
  · exact accepting_ok _
  · exact accepting_err (by cases r <;> decide)

theorem accepting_offboardReply (r : OffboardResult) : Accepting (.ok (offboardReply requestId r)) := by
  unfold offboardReply
  split
  · exact accepting_ok _
  · exact accepting_err (by cases r <;> decide)

theorem callActionMethod_accepting (c : Bridge.ToolCall) (command : ActionCommand) :
    (callActionMethod c ctx (action command)).Ends Accepting := by
  simp only [callActionMethod, Program.ends_ite]
  exact ⟨fun _ => accepting_err (by decide), fun _ r => accepting_actionReply r⟩

theorem latchAbort_returns : (latchAbort ctx).Ends fun result => result = .ok () := by
  unfold latchAbort readInAir
  cases ctx.telemetry with
  | false => rfl
  | true =>
    intro flying
    cases flying with
    | false => rfl
    | true =>
      cases ctx.safety with
      | false => rfl
      | true => exact fun _ => rfl

theorem latched_accepting (command : ActionCommand) :
    (latchAbort ctx >>= fun _ => action command >>= fun r => pure (actionReply requestId r) :
      Bridge.Code Bridge.ToolResult).Ends Accepting := by
  apply latchAbort_returns.bind
  · exact fun _ _ r => accepting_actionReply r
  · rintro e ⟨⟩

theorem handleAbort_accepting (c : Bridge.ToolCall) : (handleAbort c ctx).Ends Accepting := by
  simp only [handleAbort, Program.ends_ite]
  exact ⟨fun _ => accepting_err (by decide), fun _ => latched_accepting .land⟩

theorem handleKill_accepting (c : Bridge.ToolCall) : (handleKill c ctx).Ends Accepting := by
  simp only [handleKill, Program.ends_ite]
  exact ⟨fun _ => accepting_err (by decide), fun _ => latched_accepting .kill⟩

theorem setpoint_accepting (yaw : Option Float) (setpoint : Float32 → OffboardCommand) :
    (if !ctx.offboard then pure (err requestId "offboard_not_initialized")
      else setpointYawDeg ctx yaw >>= fun yawDeg => offboard (setpoint yawDeg) >>= fun _ =>
        offboard .start >>= fun r => pure (offboardReply requestId r) :
        Bridge.Code Bridge.ToolResult).Ends Accepting := by
  rw [Program.ends_ite]
  constructor
  · exact fun _ => accepting_err (by decide)
  · intro _
    apply (setpointYawDeg_ends ctx yaw).bind
    · exact fun yawDeg _ _ r => accepting_offboardReply r
    · rintro e ⟨x, ⟨⟩⟩

variable {c : Bridge.ToolCall}

theorem handleTakeoff_accepting {altitude : Float} (read : Reads c.args "altitude_m" (some altitude)) :
    (handleTakeoff c ctx).Ends Accepting := by
  rw [handleTakeoff, requireDouble_eq_ok_iff.mpr read]
  change Program.Ends Accepting (if _ then _ else _)
  rw [Program.ends_ite]
  exact ⟨fun _ => accepting_err (by decide), fun _ _ r => accepting_actionReply r⟩

theorem handleGotoNed_accepting {n e d : Float} {yaw : Option Float} (north : Reads c.args "n" (some n))
    (east : Reads c.args "e" (some e)) (down : Reads c.args "d" (some d))
    (heading : Reads c.args "yaw_deg" yaw) : (handleGotoNed c ctx).Ends Accepting := by
  rw [handleGotoNed, requireDouble_eq_ok_iff.mpr north, requireDouble_eq_ok_iff.mpr east,
    requireDouble_eq_ok_iff.mpr down, optionalDouble_eq_ok_iff.mpr heading]
  exact setpoint_accepting yaw _

theorem handleSetVelocityNed_accepting {vx vy vz yaw : Option Float} (north : Reads c.args "vx" vx)
    (east : Reads c.args "vy" vy) (down : Reads c.args "vz" vz) (heading : Reads c.args "yaw_deg" yaw)
    (given : ¬ (vx = none ∧ vy = none ∧ vz = none)) : (handleSetVelocityNed c ctx).Ends Accepting := by
  rw [handleSetVelocityNed, optionalDouble_eq_ok_iff.mpr north, optionalDouble_eq_ok_iff.mpr east,
    optionalDouble_eq_ok_iff.mpr down, optionalDouble_eq_ok_iff.mpr heading]
  change Program.Ends Accepting (if (vx.isNone && vy.isNone && vz.isNone) = true then _ else _)
  rw [if_neg (by simpa [and_assoc] using given)]
  exact setpoint_accepting yaw _

/-! What does not fit ends the handler before it does anything. -/

theorem handleTakeoff_refusing (unread : ¬ ∃ altitude, Reads c.args "altitude_m" (some altitude)) :
    ∃ error, handleTakeoff c ctx = pure (err c.requestId error) := by
  cases read : requireDouble c.args "altitude_m" with
  | ok altitude => exact absurd ⟨altitude, requireDouble_eq_ok_iff.mp read⟩ unread
  | error error => exact ⟨error, by rw [handleTakeoff, read]; rfl⟩

theorem handleGotoNed_refusing (unread : ¬ ∃ n e d yaw, Reads c.args "n" (some n) ∧
    Reads c.args "e" (some e) ∧ Reads c.args "d" (some d) ∧ Reads c.args "yaw_deg" yaw) :
    ∃ error, handleGotoNed c ctx = pure (err c.requestId error) := by
  rw [handleGotoNed]
  cases north : requireDouble c.args "n" with
  | error error => exact ⟨error, rfl⟩
  | ok n =>
    cases east : requireDouble c.args "e" with
    | error error => exact ⟨error, rfl⟩
    | ok e =>
      cases down : requireDouble c.args "d" with
      | error error => exact ⟨error, rfl⟩
      | ok d =>
        cases heading : optionalDouble c.args "yaw_deg" with
        | error error => exact ⟨error, rfl⟩
        | ok yaw =>
          exact absurd ⟨n, e, d, yaw, requireDouble_eq_ok_iff.mp north, requireDouble_eq_ok_iff.mp east,
            requireDouble_eq_ok_iff.mp down, optionalDouble_eq_ok_iff.mp heading⟩ unread

theorem handleSetVelocityNed_refusing (unread : ¬ ∃ vx vy vz yaw, Reads c.args "vx" vx ∧
    Reads c.args "vy" vy ∧ Reads c.args "vz" vz ∧ Reads c.args "yaw_deg" yaw ∧
    ¬ (vx = none ∧ vy = none ∧ vz = none)) :
    ∃ error, handleSetVelocityNed c ctx = pure (err c.requestId error) := by
  rw [handleSetVelocityNed]
  cases north : optionalDouble c.args "vx" with
  | error error => exact ⟨error, rfl⟩
  | ok vx =>
    cases east : optionalDouble c.args "vy" with
    | error error => exact ⟨error, rfl⟩
    | ok vy =>
      cases down : optionalDouble c.args "vz" with
      | error error => exact ⟨error, rfl⟩
      | ok vz =>
        change ∃ error, (if (vx.isNone && vy.isNone && vz.isNone) = true then _ else _) = _
        split
        · exact ⟨_, rfl⟩
        · next given =>
          cases heading : optionalDouble c.args "yaw_deg" with
          | error error => exact ⟨error, rfl⟩
          | ok yaw =>
            exact absurd ⟨vx, vy, vz, yaw, optionalDouble_eq_ok_iff.mp north,
              optionalDouble_eq_ok_iff.mp east, optionalDouble_eq_ok_iff.mp down,
              optionalDouble_eq_ok_iff.mp heading, by simpa [and_assoc] using given⟩ unread

end

/-! ## The tools -/

/-- What a tool's schema promises of its handler, and of the limits that the gate checks. -/
structure Kept (env : SafetyEnvelope) (ctx : FlightCtx) (parameters : Json) (c : Bridge.ToolCall) : Prop where
  fits : parameters.fits c.args = true →
    Limited (checkLimits c.name c.args env) ∧ (dispatch c ctx).Ends Accepting
  unfit : parameters.fits c.args = false → ∃ error, dispatch c ctx = pure (err c.requestId error)

section
variable {env : SafetyEnvelope} {ctx : FlightCtx} {c : Bridge.ToolCall} {members : List (String × Json)}
  {name : String} {handler : Bridge.ToolCall → FlightCtx → Bridge.Code Bridge.ToolResult}

theorem dispatch_eq (named : c.name = name) (found : handlers.lookup name = some handler) :
    dispatch c ctx = handler c ctx := by
  rw [dispatch, named, found]

theorem kept_plain (named : c.name = name) (object : c.args = .object members)
    (found : handlers.lookup name = some handler) (accepting : (handler c ctx).Ends Accepting)
    (unlimited : checkLimits name c.args env = {}) : Kept env ctx noParameters c where
  fits _ := by
    rw [named, unlimited, dispatch_eq named found]
    exact ⟨limited_allow, accepting⟩
  unfit unfit := by
    rw [object, fits_noParameters] at unfit
    cases unfit

theorem kept_takeoff (named : c.name = "takeoff") (object : c.args = .object members) :
    Kept env ctx takeoffParameters c := by
  have found : dispatch c ctx = handleTakeoff c ctx := dispatch_eq named rfl
  constructor
  · intro fits
    rw [object, fits_takeoff_iff, ← object] at fits
    obtain ⟨altitude, read⟩ := fits
    rw [named, found]
    exact ⟨checkTakeoff_limited read, handleTakeoff_accepting read⟩
  · intro unfit
    rw [object, ← Bool.not_eq_true, fits_takeoff_iff, ← object] at unfit
    rw [found]
    exact handleTakeoff_refusing unfit

theorem kept_gotoNed (named : c.name = "goto_ned") (object : c.args = .object members) :
    Kept env ctx gotoNedParameters c := by
  have found : dispatch c ctx = handleGotoNed c ctx := dispatch_eq named rfl
  constructor
  · intro fits
    rw [object, fits_gotoNed_iff, ← object] at fits
    obtain ⟨n, e, d, yaw, north, east, down, heading⟩ := fits
    rw [named, found]
    exact ⟨checkGotoNed_limited north east down, handleGotoNed_accepting north east down heading⟩
  · intro unfit
    rw [object, ← Bool.not_eq_true, fits_gotoNed_iff, ← object] at unfit
    rw [found]
    exact handleGotoNed_refusing unfit

theorem kept_setVelocityNed (named : c.name = "set_velocity_ned") (object : c.args = .object members) :
    Kept env ctx setVelocityNedParameters c := by
  have found : dispatch c ctx = handleSetVelocityNed c ctx := dispatch_eq named rfl
  constructor
  · intro fits
    rw [object, fits_setVelocityNed_iff, ← object] at fits
    obtain ⟨vx, vy, vz, yaw, north, east, down, heading, given⟩ := fits
    rw [named, found]
    exact ⟨checkSetVelocityNed_limited north east down,
      handleSetVelocityNed_accepting north east down heading given⟩
  · intro unfit
    rw [object, ← Bool.not_eq_true, fits_setVelocityNed_iff, ← object] at unfit
    rw [found]
    exact handleSetVelocityNed_refusing unfit

end

theorem schemas_kept (env : SafetyEnvelope) (ctx : FlightCtx) (c : Bridge.ToolCall)
    (members : List (String × Json)) (object : c.args = .object members) :
    ∀ tool ∈ toolSchemas, c.name = tool.name → Kept env ctx tool.parameters c := by
  have plain {name : String} {handler : Bridge.ToolCall → FlightCtx → Bridge.Code Bridge.ToolResult}
      (found : handlers.lookup name = some handler) (accepting : (handler c ctx).Ends Accepting)
      (unlimited : checkLimits name c.args env = {}) (named : c.name = name) :
      Kept env ctx noParameters c :=
    kept_plain named object found accepting unlimited
  simp only [toolSchemas, List.forall_mem_cons]
  exact ⟨plain rfl (callActionMethod_accepting c .arm) rfl,
    plain rfl (callActionMethod_accepting c .disarm) rfl,
    fun named => kept_takeoff named object,
    plain rfl (callActionMethod_accepting c .land) rfl,
    plain rfl (callActionMethod_accepting c .returnToLaunch) rfl,
    plain rfl (callActionMethod_accepting c .hold) rfl,
    fun named => kept_gotoNed named object,
    fun named => kept_setVelocityNed named object,
    plain rfl (handleAbort_accepting c) rfl,
    plain rfl (handleKill_accepting c) rfl,
    by simp⟩

/-! ## From the call to the reply -/

section
variable {env : SafetyEnvelope} {ctx : FlightCtx} {c : Bridge.ToolCall}

theorem commit_returns (readable : c.name = "arm" → ∃ b, c.args.valueBool "voice_confirmed" false = .ok b) :
    (commit c).Ends fun result => result = .ok () := by
  unfold commit
  rw [Program.ends_ite]
  constructor
  · intro arm
    obtain ⟨b, read⟩ := readable (eq_of_beq arm)
    rw [read]
    cases b with
    | false => rfl
    | true => exact fun _ => rfl
  · intro _
    rw [Program.ends_ite]
    exact ⟨fun _ _ _ => rfl, fun _ => rfl⟩

theorem serve_accepting (readable : c.name = "arm" → ∃ b, c.args.valueBool "voice_confirmed" false = .ok b)
    (limits : Limited (checkLimits c.name c.args env)) (accepting : (dispatch c ctx).Ends Accepting) :
    (serve env ctx c).Ends Accepting := by
  apply (checkTool_decides readable).bind
  · rintro gate ⟨_, ⟨⟩, decided⟩
    have limited : Limited gate := by
      rcases decided with rfl | rfl | rfl
      · exact limited_deny (by decide)
      · exact limited_deny (by decide)
      · exact limits
    rw [Program.ends_ite]
    constructor
    · intro denied
      exact limitReasons_accepting _ (limited (by simpa using denied))
    · intro _
      apply accepting.bind
      · intro result accepted
        rw [Program.ends_ite]
        constructor
        · intro _
          apply (commit_returns readable).bind
          · exact fun _ _ => accepted
          · rintro e ⟨⟩
        · exact fun _ => accepted
      · exact fun e failed => failed
  · rintro e ⟨_, ⟨⟩, -⟩

/-- A handler that refuses at once. -/
theorem serve_refusing {error : String} (readable : c.name = "arm" →
      ∃ b, c.args.valueBool "voice_confirmed" false = .ok b)
    (refused : dispatch c ctx = pure (err c.requestId error)) :
    (serve env ctx c).Ends Refusing ∧ (serve env ctx c).All (·.isCommand = false) := by
  unfold serve
  rw [refused]
  constructor
  · apply (checkTool_decides readable).bind
    · rintro gate -
      rw [Program.ends_ite]
      exact ⟨fun _ => rfl, fun _ => rfl⟩
    · rintro e ⟨_, ⟨⟩, -⟩
  · apply Program.All.bind
    · apply (checkTool_all c.name c.args env).mono
      intro op reads
      cases op with
      | loadAborted | loadArmedWithVoice => rfl
      | _ => cases reads
    · intro gate
      rw [Program.all_ite]
      exact ⟨fun _ => trivial, fun _ => trivial⟩

end

/-- The arguments that a call puts on the wire: an arm says whether it was spoken. -/
def sentArgs (tc : Orchestrator.ToolCall) (spoken : Bool) : List (String × Json) :=
  if tc.name = "arm" then Json.setMember "voice_confirmed" (.boolean spoken) tc.args else tc.args

theorem authorizedArgs_sent (tc : Orchestrator.ToolCall) :
    (authorizedArgs tc).Ends fun result => ∃ spoken, result = .ok (sentArgs tc spoken) := by
  unfold authorizedArgs sentArgs
  rw [Program.ends_ite]
  constructor
  · intro arm spoken
    exact ⟨spoken, by rw [if_pos arm]⟩
  · intro other
    exact ⟨true, by rw [if_neg other]⟩

/-- Nothing is sent but the call's own request. -/
def Sends (tc : Orchestrator.ToolCall) : WireOp → Prop
  | .send json => ∃ spoken, json = request tc (sentArgs tc spoken)
  | _ => True

theorem sends_exchange (tc : Orchestrator.ToolCall) (spoken : Bool) :
    (exchange tc (sentArgs tc spoken)).All (Sends tc) := by
  simp only [exchange, ensureReqSocket_bind, send_bind, recv_bind, Program.all_step]
  refine ⟨trivial, fun created => Program.All.bind (Program.all_ofExcept _ _) fun _ => ?_⟩
  refine ⟨⟨spoken, rfl⟩, fun sent => Program.All.bind (Program.all_ofExcept _ _) fun _ => ?_⟩
  refine ⟨trivial, fun received => Program.All.bind (Program.all_ofExcept _ _) fun data => ?_⟩
  cases data with
  | object members => exact ⟨trivial, fun _ => trivial⟩
  | _ => trivial

theorem sends_onWireError (tc : Orchestrator.ToolCall) (e : WireException) :
    (onWireError tc e).All (Sends tc) := by
  cases e with
  | recursionError => trivial
  | caught e => cases e <;> simp [onWireError, Sends]

theorem sends_dispatchToolCall (tc : Orchestrator.ToolCall) :
    (dispatchToolCall tc).All (Sends tc) := by
  simp only [dispatchToolCall, bridgeOffline_bind, Program.all_step]
  refine ⟨trivial, fun offline => ?_⟩
  cases offline with
  | true => exact ⟨trivial, fun _ => trivial⟩
  | false =>
    apply Program.All.bind_ends ?quiet (authorizedArgs_sent tc)
    case quiet =>
      rw [authorizedArgs, Program.all_ite]
      exact ⟨fun _ => ⟨trivial, fun _ => trivial⟩, fun _ => trivial⟩
    rintro _ ⟨spoken, ⟨⟩⟩
    exact (sends_exchange tc spoken).catching (sends_onWireError tc)

theorem sentArgs_readable (tc : Orchestrator.ToolCall) (spoken : Bool) (arm : tc.name = "arm") :
    ∃ b, (Json.object (sentArgs tc spoken)).valueBool "voice_confirmed" false = .ok b := by
  refine ⟨spoken, ?_⟩
  rw [sentArgs, if_pos arm, Json.valueBool, Json.value, Json.lookup_setMember]
  rfl

/-- A listed tool has no schema but the one for its name. -/
theorem noParameters_arm : ∀ tool ∈ toolSchemas, tool.name = "arm" → tool.parameters = noParameters := by
  simp [toolSchemas]

theorem fits_sentArgs {tool : ToolSchema} (listed : tool ∈ toolSchemas) {tc : Orchestrator.ToolCall}
    (named : tc.name = tool.name) (spoken : Bool) :
    tool.parameters.fits (.object (sentArgs tc spoken)) = tool.parameters.fits (.object tc.args) := by
  unfold sentArgs
  split
  · next arm =>
    rw [noParameters_arm tool listed (named ▸ arm), fits_noParameters, fits_noParameters]
  · rfl

theorem handle_request (env : SafetyEnvelope) (ctx : FlightCtx) (tc : Orchestrator.ToolCall)
    (args : List (String × Json)) : handle env ctx (.value (request tc args)) =
      (serve env ctx ⟨tc.requestId, tc.name, .object args⟩).catching fun what =>
        pure (badRequest what) := by
  have read : Bridge.ToolCall.fromJson (request tc args) =
      .ok ⟨tc.requestId, tc.name, .object args⟩ := rfl
  simp [handle, Parsed.get, read]

/-- What the VLM is told of a tool is what the bridge holds its calls to. A call sends its own
request and no other. If its arguments fit the schema, that is answered without fault of form,
by the vehicle, a latch or a limit; if not, it is refused before any command. The request is
taken as parsed: what the bridge's parser refuses, such as a number beyond a double, is not. -/
theorem tool_contract {tool : ToolSchema} (listed : tool ∈ toolSchemas) {tc : Orchestrator.ToolCall}
    (named : tc.name = tool.name) (spoken : Bool) (env : SafetyEnvelope) (ctx : FlightCtx) :
    (dispatchToolCall tc).All (Sends tc) ∧
    let answer := handle env ctx (.value (request tc (sentArgs tc spoken)))
    (tool.parameters.fits (.object tc.args) = true → answer.Ends Accepting) ∧
    (tool.parameters.fits (.object tc.args) = false →
      answer.Ends Refusing ∧ answer.All (·.isCommand = false)) := by
  refine ⟨sends_dispatchToolCall tc, ?_⟩
  have kept := schemas_kept env ctx ⟨tc.requestId, tc.name, .object (sentArgs tc spoken)⟩ _ rfl tool
    listed named
  have readable := sentArgs_readable tc spoken
  simp only [handle_request, ← fits_sentArgs listed named spoken]
  constructor
  · intro fits
    obtain ⟨limits, accepting⟩ := kept.fits fits
    apply (serve_accepting readable limits accepting).catching
    · exact fun _ accepted => accepted
    · exact fun _ failed => failed.elim
  · intro unfit
    obtain ⟨error, refused⟩ := kept.unfit unfit
    obtain ⟨ends, silent⟩ := @serve_refusing env _ _ _ readable refused
    constructor
    · apply ends.catching
      · exact fun _ refusing => refusing
      · exact fun _ failed => failed.elim
    · exact silent.catching fun _ => trivial

def takeoffCall (key : String) : Orchestrator.ToolCall :=
  { requestId := "1", name := "takeoff", args := [(key, .integer 2)] }

/-- A takeoff with its altitude, and one whose altitude has a name of the VLM's own making. -/
theorem tool_contract_takeoff :
    (handle {} {} (.value (request (takeoffCall "altitude_m") [("altitude_m", .integer 2)]))).Ends Accepting ∧
    (handle {} {} (.value (request (takeoffCall "alt_m") [("alt_m", .integer 2)]))).Ends Refusing ∧
    (handle {} {} (.value (request (takeoffCall "alt_m") [("alt_m", .integer 2)]))).All
      (·.isCommand = false) := by
  have listed : toolSchemas.get ⟨2, by decide⟩ ∈ toolSchemas := List.get_mem _ _
  have takes (key : String) := @tool_contract _ listed (takeoffCall key) rfl false {} {}
  exact ⟨(takes "altitude_m").2.1 (by decide), (takes "alt_m").2.2 (by decide)⟩

end Lexaire.System
