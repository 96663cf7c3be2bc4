import Lexaire.Bridge.Envelope
import Lexaire.Bridge.Rejection
import Lexaire.Orchestrator.Wire
import Lexaire.Orchestrator.Mission

/-! When the loop takes the bridge for lost. It goes by the error text of a call,
and the bridge has one text in common with the transport: the `timeout` of a
MAVSDK command. Every other reply is told apart. -/
namespace Lexaire.Orchestrator
open Atomic Text Lexaire.Bridge

def lost (error : String) : Bool := transportFailure (.string error)

theorem lost_append {start : String}
    (differ : (["bridge_offline", "timeout", "wire_error"].all (apart start ·)) = true)
    (rest : String) : lost (start ++ rest) = false := by
  simp only [List.all_cons, List.all_nil, Bool.and_true, Bool.and_eq_true] at differ
  simp [lost, transportFailure, append_ne_of_apart differ.1, append_ne_of_apart differ.2.1,
    startsWith_append_of_apart differ.2.2]

/-- The Action method whose result a tool reports. -/
def reportedAction : String → Option ActionCommand
  | "arm" => some .arm
  | "disarm" => some .disarm
  | "takeoff" => some .takeoff
  | "land" | "abort" => some .land
  | "return_to_launch" => some .returnToLaunch
  | "hold" => some .hold
  | "kill" => some .kill
  | _ => none

/-- Arguments with which a handler gets to the command it reports. -/
def readable (name : String) (args : Json) : Bool :=
  let reads (key : String) := (requireDouble args key).toOption.isSome
  let tolerates (key : String) := (optionalDouble args key).toOption.isSome
  if name = "takeoff" then reads "altitude_m"
  else if name = "goto_ned" then reads "n" && reads "e" && reads "d" && tolerates "yaw_deg"
  else if name = "set_velocity_ned" then
    tolerates "vx" && tolerates "vy" && tolerates "vz" && tolerates "yaw_deg" &&
      ["vx", "vy", "vz"].any fun key => (args.find? key).isSome
  else true

/-- The command whose result the reply to `c` reports answers `Timeout`. -/
def ReportsTimeout (ctx : FlightCtx) (o : Outside) (c : Bridge.ToolCall) : Prop :=
  readable c.name c.args = true ∧
    ((ctx.action = true ∧ ∃ command, reportedAction c.name = some command ∧
      o.action command = .timeout) ∨
    (ctx.offboard = true ∧ (c.name = "goto_ned" ∨ c.name = "set_velocity_ned") ∧
      o.offboard .start = .timeout))

/-- How a handler may end: with `timeout` where `timedOut`, else with another text. -/
def Told (timedOut : Prop) (requestId : String) : Except String Bridge.ToolResult → Prop
  | .ok r => (timedOut → r = err requestId "timeout") ∧ (¬ timedOut → lost r.error = false)
  | .error _ => ¬ timedOut

variable (o : Outside) (s : SafetyState)

theorem lost_success : lost "" = false := by decide

theorem Told.congr {p q : Prop} {requestId : String} {result : Except String Bridge.ToolResult}
    (same : p ↔ q) (told : Told p requestId result) : Told q requestId result := by
  rwa [← propext same]

theorem told_actionReply (requestId : String) (r : ActionResult) :
    Told (r = .timeout) requestId (.ok (actionReply requestId r)) := by
  refine ⟨?_, fun other => ?_⟩
  · rintro rfl
    rfl
  · have text : lost (actionResultToString r) = false := by
      cases r <;> first | decide | exact absurd rfl other
    unfold actionReply
    split
    · exact lost_success
    · exact text

theorem told_offboardReply (requestId : String) (r : OffboardResult) :
    Told (r = .timeout) requestId (.ok (offboardReply requestId r)) := by
  refine ⟨?_, fun other => ?_⟩
  · rintro rfl
    rfl
  · have text : lost (offboardResultToString r) = false := by
      cases r <;> first | decide | exact absurd rfl other
    unfold offboardReply
    split
    · exact lost_success
    · exact text

theorem told_err {timedOut : Prop} (never : ¬ timedOut) {requestId error : String}
    (other : lost error = false) : Told timedOut requestId (.ok (err requestId error)) :=
  ⟨fun yes => absurd yes never, fun _ => other⟩

theorem lost_reader {key error : String} (reads : ∃ start ∈ readerErrors, error = start ++ key) :
    lost error = false := by
  have differ : ∀ start ∈ readerErrors,
      (["bridge_offline", "timeout", "wire_error"].all (apart start ·)) = true := by decide
  obtain ⟨start, member, rfl⟩ := reads
  exact lost_append (differ start member) key

/-- A reader's error ends the handler, with a text that is told apart. -/
theorem told_withArg {α : Type} {timedOut : Prop} {requestId key : String} {arg : Except String α}
    {rest : α → Bridge.Code Bridge.ToolResult}
    (failed : ∀ error, arg = .error error → ∃ start ∈ readerErrors, error = start ++ key)
    (unread : ∀ error, arg = .error error → ¬ timedOut)
    (read : ∀ x, arg = .ok x → Told timedOut requestId ((rest x).run o.answer s).result) :
    Told timedOut requestId ((withArg requestId arg rest).run o.answer s).result := by
  cases known : arg with
  | error error => exact told_err (unread error known) (lost_reader (failed error known))
  | ok x => exact read x known

theorem callActionMethod_told (c : Bridge.ToolCall) (ctx : FlightCtx) (command : ActionCommand) :
    Told (ctx.action = true ∧ o.action command = .timeout) c.requestId
      ((callActionMethod c ctx (action command)).run o.answer s).result := by
  cases ready : ctx.action with
  | false =>
    simp only [callActionMethod, ready, Bool.not_false, if_true]
    exact told_err (by simp) (by decide)
  | true =>
    simp only [callActionMethod, ready, Bool.not_true, Bool.false_eq_true, if_false, true_and]
    exact told_actionReply c.requestId (o.action command)

theorem latchAbort_run (ctx : FlightCtx) :
    ((latchAbort ctx).run o.answer s).result = .ok () := by
  unfold latchAbort readInAir
  cases ctx.telemetry <;> cases ctx.safety <;> cases flying : o.inAir <;> simp [flying, storeAborted,
    Program.perform]

theorem latched_told (c : Bridge.ToolCall) (ctx : FlightCtx) (command : ActionCommand) :
    Told (o.action command = .timeout) c.requestId ((latchAbort ctx >>= fun _ =>
      action command >>= fun r => pure (actionReply c.requestId r)).run o.answer s).result := by
  have latched := latchAbort_run o s ctx
  rw [Program.run_bind]
  generalize (latchAbort ctx).run o.answer s = first at latched
  obtain ⟨performed, s', result⟩ := first
  obtain rfl : result = .ok () := latched
  exact told_actionReply c.requestId (o.action command)

theorem handleAbort_told (c : Bridge.ToolCall) (ctx : FlightCtx) :
    Told (ctx.action = true ∧ o.action .land = .timeout) c.requestId
      ((handleAbort c ctx).run o.answer s).result := by
  cases ready : ctx.action with
  | false =>
    simp only [handleAbort, ready, Bool.not_false, if_true]
    exact told_err (by simp) (by decide)
  | true =>
    simp only [handleAbort, ready, Bool.not_true, Bool.false_eq_true, if_false, true_and]
    exact latched_told o s c ctx .land

theorem handleKill_told (c : Bridge.ToolCall) (ctx : FlightCtx) :
    Told (ctx.action = true ∧ o.action .kill = .timeout) c.requestId
      ((handleKill c ctx).run o.answer s).result := by
  cases ready : ctx.action with
  | false =>
    simp only [handleKill, ready, Bool.not_false, if_true]
    exact told_err (by simp) (by decide)
  | true =>
    simp only [handleKill, ready, Bool.not_true, Bool.false_eq_true, if_false, true_and]
    exact latched_told o s c ctx .kill

theorem handleTakeoff_told (c : Bridge.ToolCall) (ctx : FlightCtx) :
    Told (readable "takeoff" c.args = true ∧ ctx.action = true ∧ o.action .takeoff = .timeout)
      c.requestId ((handleTakeoff c ctx).run o.answer s).result := by
  refine told_withArg o s (fun _ => requireDouble_error) (fun _ failed => ?_) fun x read => ?_
  · simp [readable, failed, Except.toOption]
  · have reads : readable "takeoff" c.args = true := by simp [readable, read, Except.toOption]
    cases ready : ctx.action with
    | false => exact told_err (by simp) (by decide)
    | true =>
      refine .congr ?_ (told_actionReply c.requestId (o.action .takeoff))
      simp [reads]

/-- Both setpoint tools end in the reply to `start()`. -/
theorem setpoint_told (c : Bridge.ToolCall) (ctx : FlightCtx) (yaw : Option Float)
    (setpoint : Float32 → OffboardCommand) :
    Told (ctx.offboard = true ∧ o.offboard .start = .timeout) c.requestId
      ((if !ctx.offboard then pure (err c.requestId "offboard_not_initialized")
        else setpointYawDeg ctx yaw >>= fun yawDeg => offboard (setpoint yawDeg) >>= fun _ =>
          offboard .start >>= fun r => pure (offboardReply c.requestId r) :
          Bridge.Code Bridge.ToolResult).run o.answer s).result := by
  cases ready : ctx.offboard with
  | false =>
    simp only [Bool.not_false, if_true]
    exact told_err (by simp) (by decide)
  | true =>
    obtain ⟨reads, ran, -⟩ := setpointYawDeg_run o s ctx yaw
    simp only [Bool.not_true, Bool.false_eq_true, if_false, true_and, Program.run_bind, ran]
    exact told_offboardReply c.requestId (o.offboard .start)

theorem handleGotoNed_told (c : Bridge.ToolCall) (ctx : FlightCtx) :
    Told (readable "goto_ned" c.args = true ∧ ctx.offboard = true ∧ o.offboard .start = .timeout)
      c.requestId ((handleGotoNed c ctx).run o.answer s).result := by
  refine told_withArg o s (fun _ => requireDouble_error) (fun _ failed => ?_) fun n hn => ?_
  · simp [readable, failed, Except.toOption]
  refine told_withArg o s (fun _ => requireDouble_error) (fun _ failed => ?_) fun e he => ?_
  · simp [readable, failed, Except.toOption]
  refine told_withArg o s (fun _ => requireDouble_error) (fun _ failed => ?_) fun d hd => ?_
  · simp [readable, failed, Except.toOption]
  refine told_withArg o s (fun _ => optionalDouble_error) (fun _ failed => ?_) fun yaw hyaw => ?_
  · simp [readable, failed, Except.toOption]
  refine .congr ?_ (setpoint_told o s c ctx yaw fun yawDeg => .setPositionNed
    ⟨Double.toSingle n, Double.toSingle e, Double.toSingle d, yawDeg⟩)
  simp [readable, hn, he, hd, hyaw, Except.toOption]

/-- An absent component is the only one that reads as none. -/
theorem optionalDouble_isSome {args : Json} {key : String} {x : Option Float}
    (read : optionalDouble args key = .ok x) : (args.find? key).isSome = x.isSome := by
  unfold optionalDouble at read
  split at read
  · next absent =>
    obtain rfl := Except.ok.inj read
    rw [absent]
    rfl
  · next present =>
    rw [present]
    split at read
    · cases read
    · obtain rfl := Except.ok.inj read
      rfl

theorem handleSetVelocityNed_told (c : Bridge.ToolCall) (ctx : FlightCtx) :
    Told (readable "set_velocity_ned" c.args = true ∧ ctx.offboard = true ∧
        o.offboard .start = .timeout)
      c.requestId ((handleSetVelocityNed c ctx).run o.answer s).result := by
  refine told_withArg o s (fun _ => optionalDouble_error) (fun _ failed => ?_) fun vx hx => ?_
  · simp [readable, failed, Except.toOption]
  refine told_withArg o s (fun _ => optionalDouble_error) (fun _ failed => ?_) fun vy hy => ?_
  · simp [readable, failed, Except.toOption]
  refine told_withArg o s (fun _ => optionalDouble_error) (fun _ failed => ?_) fun vz hz => ?_
  · simp [readable, failed, Except.toOption]
  have components := And.intro (optionalDouble_isSome hx)
    (And.intro (optionalDouble_isSome hy) (optionalDouble_isSome hz))
  by_cases missing : (vx.isNone && vy.isNone && vz.isNone) = true
  · simp only [missing, if_true]
    refine told_err ?_ (by decide)
    simp only [Bool.and_eq_true, Option.isNone_iff_eq_none] at missing
    simp [readable, components, missing]
  · simp only [missing, Bool.false_eq_true, if_false]
    refine told_withArg o s (fun _ => optionalDouble_error) (fun _ failed => ?_) fun yaw hyaw => ?_
    · simp [readable, failed, Except.toOption]
    refine .congr ?_ (setpoint_told o s c ctx yaw fun yawDeg => .setVelocityNed
      ⟨Double.toSingle (vx.getD 0.0), Double.toSingle (vy.getD 0.0),
        Double.toSingle (vz.getD 0.0), yawDeg⟩)
    have some_component : (vx.isSome || (vy.isSome || vz.isSome)) = true := by
      cases vx <;> cases vy <;> cases vz <;> simp_all
    simp [readable, hx, hy, hz, hyaw, Except.toOption, components, some_component]

/-! The other tools prefix the results they report. -/

abbrev NeverLost (result : Except String Bridge.ToolResult) : Prop := Told False "" result

theorem neverLost_ok {r : Bridge.ToolResult} : NeverLost (.ok r) ↔ lost r.error = false := by
  simp [NeverLost, Told]

theorem neverLost_err {requestId error : String} (other : lost error = false) :
    NeverLost (.ok (err requestId error)) := neverLost_ok.mpr other

theorem NeverLost.told {timedOut : Prop} (never : ¬ timedOut) {requestId : String}
    {result : Except String Bridge.ToolResult} (told : NeverLost result) :
    Told timedOut requestId result := by
  cases result with
  | error what => exact never
  | ok r => exact ⟨fun yes => absurd yes never, fun _ => told.2 id⟩

theorem withArg_neverLost {requestId : String} {args : Json} {key : String}
    {rest : Float → Bridge.Code Bridge.ToolResult}
    (ends : ∀ x, (rest x).Ends NeverLost) :
    (withArg requestId (requireDouble args key) rest).Ends NeverLost := by
  unfold withArg
  cases read : requireDouble args key with
  | error error => exact neverLost_ok.mpr (lost_reader (requireDouble_error read))
  | ok x => exact ends x

theorem paramSetReply_neverLost (requestId : String) (r : ParamResult) :
    NeverLost (.ok (paramSetReply requestId r)) := by
  rw [neverLost_ok, paramSetReply]
  split
  · exact lost_success
  · exact lost_append (by decide) _

theorem handleSetParam_ends (c : Bridge.ToolCall) (ctx : FlightCtx) :
    (handleSetParam c ctx).Ends NeverLost := by
  unfold handleSetParam
  cases c.args.valueString "name" "" with
  | error what => exact not_false
  | ok name =>
    simp only [Program.ofExcept_ok, Program.done_bind, Program.ends_ite]
    refine ⟨fun _ => neverLost_err (by decide), fun _ => ⟨fun _ => neverLost_err (by decide),
      fun _ => ⟨fun _ => ?_, fun _ => ⟨fun _ => ?_, fun _ => neverLost_err (by decide)⟩⟩⟩⟩
    · refine withArg_neverLost fun v => .bind (castInt_ends v) ?_ (by simp)
      exact fun _ _ r => paramSetReply_neverLost c.requestId r
    · exact withArg_neverLost fun v r => paramSetReply_neverLost c.requestId r

theorem handleGetParam_ends (c : Bridge.ToolCall) (ctx : FlightCtx) :
    (handleGetParam c ctx).Ends NeverLost := by
  unfold handleGetParam
  cases c.args.valueString "name" "" with
  | error what => exact not_false
  | ok name =>
    simp only [Program.ofExcept_ok, Program.done_bind, Program.ends_ite, getParamInt_bind,
      Program.ends_step]
    refine ⟨fun _ => neverLost_err (by decide), fun _ => ⟨fun _ => neverLost_err (by decide),
      fun _ r => ⟨fun _ => neverLost_ok.mpr lost_success, fun _ => ⟨fun _ => ?_, fun _ r => ?_⟩⟩⟩⟩
    · exact neverLost_err (lost_append (by decide) _)
    · change Program.Ends NeverLost (if r.1 = .success then _ else _)
      rw [Program.ends_ite]
      exact ⟨fun _ => neverLost_ok.mpr lost_success,
        fun _ => neverLost_err (lost_append (by decide) _)⟩

theorem handleGetHealth_ends (c : Bridge.ToolCall) (ctx : FlightCtx) :
    (handleGetHealth c ctx).Ends NeverLost := by
  simp only [handleGetHealth, Program.ends_ite]
  exact ⟨fun _ => neverLost_err (by decide), fun _ _ => neverLost_ok.mpr lost_success⟩

theorem handleEnableOffboard_ends (c : Bridge.ToolCall) (ctx : FlightCtx) :
    (handleEnableOffboard c ctx).Ends NeverLost := by
  simp only [handleEnableOffboard, Program.ends_ite]
  refine ⟨fun _ => neverLost_err (by decide), fun _ _ r => ?_⟩
  change Program.Ends NeverLost (if r = .success ∨ r = .busy then _ else _)
  rw [Program.ends_ite]
  exact ⟨fun _ => neverLost_ok.mpr lost_success,
    fun _ => neverLost_err (lost_append (by decide) _)⟩

theorem handlers_told (ctx : FlightCtx) : ∀ entry ∈ handlers, ∀ c : Bridge.ToolCall,
    c.name = entry.1 →
      Told (ReportsTimeout ctx o c) c.requestId ((entry.2 c ctx).run o.answer s).result := by
  simp only [handlers, List.forall_mem_cons]
  refine ⟨?_, ?_, ?_, ?_, ?_, ?_, ?_, ?_, ?_, ?_, ?_, ?_, ?_, ?_, by simp⟩ <;> intro c tool
  · refine .congr ?_ (callActionMethod_told o s c ctx .arm)
    simp [ReportsTimeout, readable, reportedAction, tool]
  · refine .congr ?_ (callActionMethod_told o s c ctx .disarm)
    simp [ReportsTimeout, readable, reportedAction, tool]
  · refine .congr ?_ (handleTakeoff_told o s c ctx)
    simp [ReportsTimeout, reportedAction, tool]
  · refine .congr ?_ (callActionMethod_told o s c ctx .land)
    simp [ReportsTimeout, readable, reportedAction, tool]
  · refine .congr ?_ (callActionMethod_told o s c ctx .returnToLaunch)
    simp [ReportsTimeout, readable, reportedAction, tool]
  · refine .congr ?_ (callActionMethod_told o s c ctx .hold)
    simp [ReportsTimeout, readable, reportedAction, tool]
  · refine .congr ?_ (handleGotoNed_told o s c ctx)
    simp [ReportsTimeout, reportedAction, tool]
  · refine .congr ?_ (handleSetVelocityNed_told o s c ctx)
    simp [ReportsTimeout, reportedAction, tool]
  · refine .congr ?_ (handleAbort_told o s c ctx)
    simp [ReportsTimeout, readable, reportedAction, tool]
  · refine .congr ?_ (handleKill_told o s c ctx)
    simp [ReportsTimeout, readable, reportedAction, tool]
  · refine NeverLost.told ?_ ((handleSetParam_ends c ctx).run o.answer s)
    simp [ReportsTimeout, reportedAction, tool]
  · refine NeverLost.told ?_ ((handleGetParam_ends c ctx).run o.answer s)
    simp [ReportsTimeout, reportedAction, tool]
  · refine NeverLost.told ?_ ((handleGetHealth_ends c ctx).run o.answer s)
    simp [ReportsTimeout, reportedAction, tool]
  · refine NeverLost.told ?_ ((handleEnableOffboard_ends c ctx).run o.answer s)
    simp [ReportsTimeout, reportedAction, tool]

theorem dispatch_told (c : Bridge.ToolCall) (ctx : FlightCtx) :
    Told (ReportsTimeout ctx o c) c.requestId ((dispatch c ctx).run o.answer s).result := by
  unfold dispatch
  cases found : handlers.lookup c.name with
  | some handler => exact handlers_told o s ctx _ (mem_handlers found) c rfl
  | none =>
    refine told_err ?_ (lost_append (by decide) c.name)
    have unknown (name : String) (known : (handlers.lookup name).isSome = true) : c.name ≠ name := by
      rintro rfl
      rw [found] at known
      cases known
    rintro ⟨-, ⟨-, command, reported, -⟩ | ⟨-, goto | velocity, -⟩⟩
    · unfold reportedAction at reported
      split at reported
      all_goals first | exact absurd ‹c.name = _› (unknown _ (by decide)) | cases reported
    · exact unknown "goto_ned" (by decide) goto
    · exact unknown "set_velocity_ned" (by decide) velocity

theorem finish_told (c : Bridge.ToolCall) (ctx : FlightCtx) :
    Told (ReportsTimeout ctx o c) c.requestId ((finish ctx c).run o.answer s).result := by
  have told := dispatch_told o s c ctx
  have finished := finish_run o s ctx c
  cases dispatched : ((dispatch c ctx).run o.answer s).result with
  | error e =>
    simp only [dispatched] at finished
    rw [finished]
    rwa [dispatched] at told
  | ok r =>
    rw [dispatched] at told
    cases accepted : r.ok with
    | false =>
      simp only [dispatched, accepted, Bool.false_eq_true, if_false] at finished
      rw [finished, dispatched]
      exact told
    | true =>
      have never : ¬ ReportsTimeout ctx o c := by
        intro timedOut
        rw [told.1 timedOut] at accepted
        cases accepted
      simp only [dispatched, accepted, if_true] at finished
      rw [finished]
      cases ((commit c).run o.answer ((dispatch c ctx).run o.answer s).state).result with
      | error e => exact never
      | ok u => exact told

/-- A request whose reply is the `timeout` of a MAVSDK command. -/
def TimesOut (env : SafetyEnvelope) (ctx : FlightCtx) (parsed : Parsed) (o : Outside)
    (s : SafetyState) : Prop :=
  ∃ c, parsed.Call c ∧ Passes env s c ∧ ReportsTimeout ctx o c

theorem serve_told (env : SafetyEnvelope) (ctx : FlightCtx) (c : Bridge.ToolCall) :
    Told (Passes env s c ∧ ReportsTimeout ctx o c) c.requestId
      ((serve env ctx c).run o.answer s).result := by
  obtain ⟨reads, served, -⟩ := serve_run o s env ctx c
  rw [served]
  cases decided : gate c.name c.args env s with
  | error e =>
    rintro ⟨⟨d, allowed, -⟩, -⟩
    rw [decided] at allowed
    cases allowed
  | ok d =>
    cases allowed : d.allow with
    | false =>
      simp only [allowed, Bool.false_eq_true, if_false]
      refine told_err ?_ (lost_append (by decide) d.reason)
      rintro ⟨⟨d', same, passes⟩, -⟩
      obtain rfl := Except.ok.inj (decided.symm.trans same)
      rw [allowed] at passes
      cases passes
    | true =>
      simp only [allowed, if_true]
      refine .congr ?_ (finish_told o s c ctx)
      exact ⟨fun timedOut => ⟨⟨d, decided, allowed⟩, timedOut⟩, And.right⟩

theorem lost_badRequest (what : String) : lost (badRequest what).error = false :=
  lost_append (by decide) what

/-- The error text of a reply is a transport's exactly when a command timed out. -/
theorem handle_lost_iff (env : SafetyEnvelope) (ctx : FlightCtx) (parsed : Parsed)
    {r : Bridge.ToolResult} (served : ((handle env ctx parsed).run o.answer s).result = .ok r) :
    lost r.error = true ↔ TimesOut env ctx parsed o s := by
  by_cases called : ∃ c, parsed.Call c
  · obtain ⟨c, call⟩ := called
    have only : TimesOut env ctx parsed o s ↔ Passes env s c ∧ ReportsTimeout ctx o c := by
      constructor
      · rintro ⟨c', ⟨j', rfl, read'⟩, timedOut⟩
        obtain ⟨j, same, read⟩ := call
        obtain rfl := Parsed.value.inj same
        obtain rfl := Except.ok.inj (read'.symm.trans read)
        exact timedOut
      · exact fun timedOut => ⟨c, call, timedOut⟩
    have told := serve_told o s env ctx c
    rw [handle_call_run o s env ctx call] at served
    rw [only]
    cases ended : ((serve env ctx c).run o.answer s).result with
    | error what =>
      rw [ended] at served told
      obtain rfl := Except.ok.inj served
      simp only [lost_badRequest, Bool.false_eq_true, false_iff]
      exact told
    | ok r' =>
      rw [ended] at served told
      obtain rfl := Except.ok.inj served
      by_cases timedOut : Passes env s c ∧ ReportsTimeout ctx o c
      · simp only [told.1 timedOut, timedOut, and_self, iff_true]
        rfl
      · simp only [told.2 timedOut, timedOut, Bool.false_eq_true]
  · obtain ⟨what, ran⟩ := handle_unparsed_run o s env ctx (not_exists.mp called)
    rw [ran] at served
    obtain rfl := Except.ok.inj served
    simp only [lost_badRequest, Bool.false_eq_true, false_iff]
    rintro ⟨c, call, -⟩
    exact called ⟨c, call⟩

/-- What the loop reads of a reply. -/
theorem transportFailure_reply (tc : ToolCall) (parsed : Parsed) (r : Bridge.ToolResult)
    (text : ∀ what, parsed = .failed what false → lost r.error = false) :
    transportFailure (ToolResult.ofReply tc (reply parsed r)).error = lost r.error := by
  have sent : transportFailure (ToolResult.ofReply tc r.toJson).error = lost r.error := by
    simp only [ToolResult.ofReply, Bridge.ToolResult.toJson_error, Option.getD_some]
    split
    · next silent =>
      rw [silent]
      decide
    · rfl
  cases parsed with
  | value j => exact sent
  | failed what utf8 =>
    cases utf8 with
    | true => exact sent
    | false =>
      have fallback : lost "internal_serialize_failed" = false := by decide
      rw [text what rfl]
      exact fallback

theorem lost_failure (l : Line) : lost l.failure = true := by
  unfold Line.failure
  have wire (what : String) : lost ("wire_error: " ++ what) = true := by
    simp [lost, transportFailure, startsWith, String.toList_append, List.isPrefixOf]
  split
  · decide
  · split
    · decide
    · exact wire _
    · exact wire _
    · exact wire _

theorem verdict_offline_iff (tc : ToolCall) (result : ToolResult) :
    verdict tc result = .offline ↔ transportFailure result.error = true := by
  unfold verdict
  split
  · simp [*]
  · split
    · simp [*]
    · split <;> simp [*]

/-- The loop takes its bridge-offline exit exactly for the calls without a reply,
unless the reply reports that a MAVSDK command has timed out. -/
theorem offline_exit_iff (env : SafetyEnvelope) (ctx : FlightCtx) (parsed : Parsed) (o : Outside)
    (s : SafetyState) (l : Line) (tc : ToolCall)
    (answered : ∀ data, l.received = .ok data →
      ∃ r, ((handle env ctx parsed).run o.answer s).result = .ok r ∧ data = reply parsed r) :
    ∃ result, ((dispatchToolCall tc).run l.answer l.offline).result = .ok result ∧
      ((verdict tc result = .offline ↔ l.reply? = none) ↔
        ¬ (l.reply?.isSome = true ∧ TimesOut env ctx parsed o s)) := by
  refine ⟨_, dispatchToolCall_result l tc, ?_⟩
  rw [verdict_offline_iff]
  cases got : l.reply? with
  | none =>
    have failed : transportFailure (Orchestrator.failure tc l.failure).error = true := lost_failure l
    simp [failed]
  | some members =>
    obtain ⟨r, served, same⟩ := answered _ (Line.reply?_received got)
    have exact_text := handle_lost_iff o s env ctx parsed served
    have read := transportFailure_reply tc parsed r ?_
    · simp only [same, read, exact_text, reduceCtorEq, iff_false, Option.isSome_some, true_and]
    · rintro what rfl
      have never : ¬ TimesOut env ctx (.failed what false) o s := by
        rintro ⟨c, ⟨j, absurd, -⟩, -⟩
        cases absurd
      simpa [never] using exact_text

/-- A vehicle whose Action commands all time out. -/
def silentVehicle : Outside := { Outside.nominal with action := fun _ => .timeout }

def landCall : ToolCall := { requestId := "1", name := "land" }

def landReply : Json :=
  reply (.value (request landCall [])) { requestId := "1", error := "timeout" }

theorem offline_exit_land :
    ∃ result, ((dispatchToolCall landCall).run
        (Line.answer { received := .ok landReply }) false).result = .ok result ∧
      ((verdict landCall result = .offline ↔ Line.reply? { received := .ok landReply } = none) ↔
        ¬ ((Line.reply? { received := .ok landReply }).isSome = true ∧
          TimesOut {} {} (.value (request landCall [])) silentVehicle {})) :=
  offline_exit_iff {} {} (.value (request landCall [])) silentVehicle {} { received := .ok landReply }
    landCall fun _ received =>
      ⟨{ requestId := "1", error := "timeout" }, rfl, (Except.ok.inj received).symm⟩

/-- `land`, answered with `timeout` by a bridge that is there: taken for lost. -/
theorem answered_land_taken_for_lost :
    ((handle {} {} (.value (request landCall []))).run silentVehicle.answer {}).result =
        .ok { requestId := "1", error := "timeout" } ∧
      (Line.reply? { received := .ok landReply }).isSome = true ∧
      ∃ result, ((dispatchToolCall landCall).run
          (Line.answer { received := .ok landReply }) false).result = .ok result ∧
        verdict landCall result = .offline :=
  ⟨rfl, rfl, _, rfl, by decide⟩

end Lexaire.Orchestrator
