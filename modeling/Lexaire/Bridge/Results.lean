import Lexaire.Bridge.Rejection

/-! What the handlers end in. However the latches, the telemetry and the vehicle
answer, a result names its request and has an error text exactly when it failed. -/
namespace Lexaire.Bridge
open Atomic Text

/-- The text of a failure: there is one, and it is none of those that the orchestrator
gives to the calls it skips. -/
def tells (error : String) : Bool := error ≠ "" && !startsWith "skipped:" error

/-- How a handler may end: with a well-formed result, or raising what `raises` allows. -/
def Formed (requestId : String) (raises : String → Prop) : Except String ToolResult → Prop
  | .ok r => r.requestId = requestId ∧ (r.ok = true → r.error = "") ∧
    (r.ok = false → tells r.error = true)
  | .error what => raises what

section Formed
variable {requestId : String} {raises : String → Prop}

theorem formed_ok (data : Json) : Formed requestId raises (.ok (ok requestId data)) :=
  ⟨rfl, fun _ => rfl, fun failed => by cases failed⟩

theorem formed_err {error : String} (text : tells error = true) :
    Formed requestId raises (.ok (err requestId error)) :=
  ⟨rfl, fun succeeded => (by cases succeeded), fun _ => text⟩

theorem tells_append {start : String} (differs : (start ≠ "" && apart start "skipped:") = true)
    (rest : String) : tells (start ++ rest) = true := by
  simp only [Bool.and_eq_true, decide_eq_true_eq] at differs
  have some_text : start ++ rest ≠ "" :=
    fun empty => differs.1 (String.append_eq_empty_iff.mp empty).1
  simp [tells, some_text, startsWith_append_of_apart differs.2]

theorem formed_actionReply (r : ActionResult) :
    Formed requestId raises (.ok (actionReply requestId r)) := by
  unfold actionReply
  split
  · exact formed_ok _
  · exact formed_err (by cases r <;> decide)

theorem formed_offboardReply (r : OffboardResult) :
    Formed requestId raises (.ok (offboardReply requestId r)) := by
  unfold offboardReply
  split
  · exact formed_ok _
  · exact formed_err (by cases r <;> decide)

theorem formed_paramSetReply (r : ParamResult) :
    Formed requestId raises (.ok (paramSetReply requestId r)) := by
  unfold paramSetReply
  split
  · exact formed_ok _
  · exact formed_err (tells_append (by decide) _)

/-- A reader tells what it missed. -/
theorem tells_reader {key error : String} (reads : ∃ start ∈ readerErrors, error = start ++ key) :
    tells error = true := by
  have differ : ∀ start ∈ readerErrors, (start ≠ "" && apart start "skipped:") = true := by decide
  obtain ⟨start, member, rfl⟩ := reads
  exact tells_append (differ start member) key

theorem withArg_formed {α : Type} {key : String} {arg : Except String α}
    {rest : α → Code ToolResult}
    (failed : ∀ error, arg = .error error → ∃ start ∈ readerErrors, error = start ++ key)
    (read : ∀ x, (rest x).Ends (Formed requestId raises)) :
    (withArg requestId arg rest).Ends (Formed requestId raises) := by
  cases known : arg with
  | error error => exact formed_err (tells_reader (failed error known))
  | ok x => exact read x

theorem setpointYawDeg_ends (ctx : FlightCtx) (yaw : Option Float) :
    (setpointYawDeg ctx yaw).Ends fun result => ∃ x, result = .ok x := by
  unfold setpointYawDeg
  cases yaw with
  | some x => exact ⟨_, rfl⟩
  | none =>
    cases ctx.telemetry with
    | true => exact fun x => ⟨x, rfl⟩
    | false => exact ⟨_, rfl⟩

/-- The end that both setpoint tools share. -/
theorem setpoint_formed (ctx : FlightCtx) (yaw : Option Float)
    (setpoint : Float32 → OffboardCommand) :
    (if !ctx.offboard then pure (err requestId "offboard_not_initialized")
      else setpointYawDeg ctx yaw >>= fun yawDeg => offboard (setpoint yawDeg) >>= fun _ =>
        offboard .start >>= fun r => pure (offboardReply requestId r) :
        Code ToolResult).Ends (Formed requestId raises) := by
  rw [Program.ends_ite]
  refine ⟨fun _ => formed_err (by decide), fun _ => ?_⟩
  refine .bind (setpointYawDeg_ends ctx yaw) (fun yawDeg _ => ?_) (by simp)
  exact fun _ r => formed_offboardReply r

theorem callActionMethod_formed (c : ToolCall) (ctx : FlightCtx) (command : ActionCommand) :
    (callActionMethod c ctx (action command)).Ends (Formed c.requestId raises) := by
  simp only [callActionMethod, Program.ends_ite]
  exact ⟨fun _ => formed_err (by decide), fun _ r => formed_actionReply r⟩

theorem handleTakeoff_formed (c : ToolCall) (ctx : FlightCtx) :
    (handleTakeoff c ctx).Ends (Formed c.requestId raises) := by
  apply withArg_formed (fun _ => requireDouble_error)
  intro altitude
  simp only [Program.ends_ite]
  exact ⟨fun _ => formed_err (by decide), fun _ _ r => formed_actionReply r⟩

theorem handleGotoNed_formed (c : ToolCall) (ctx : FlightCtx) :
    (handleGotoNed c ctx).Ends (Formed c.requestId raises) := by
  apply withArg_formed (fun _ => requireDouble_error)
  intro n
  apply withArg_formed (fun _ => requireDouble_error)
  intro e
  apply withArg_formed (fun _ => requireDouble_error)
  intro d
  apply withArg_formed (fun _ => optionalDouble_error)
  intro yaw
  exact setpoint_formed ctx yaw _

theorem handleSetVelocityNed_formed (c : ToolCall) (ctx : FlightCtx) :
    (handleSetVelocityNed c ctx).Ends (Formed c.requestId raises) := by
  apply withArg_formed (fun _ => optionalDouble_error)
  intro vx
  apply withArg_formed (fun _ => optionalDouble_error)
  intro vy
  apply withArg_formed (fun _ => optionalDouble_error)
  intro vz
  split
  · exact formed_err (by decide)
  · exact withArg_formed (fun _ => optionalDouble_error) fun yaw => setpoint_formed ctx yaw _

/-- The latch that goes before the command does not change how a handler ends. -/
theorem latched_formed (ctx : FlightCtx) (command : ActionCommand) :
    (latchAbort ctx >>= fun _ => action command >>= fun r => pure (actionReply requestId r) :
      Code ToolResult).Ends (Formed requestId raises) := by
  have latched : (latchAbort ctx).Ends fun result => result = .ok () := by
    unfold latchAbort readInAir
    cases ctx.telemetry with
    | false => rfl
    | true =>
      intro flying
      cases flying with
      | false => rfl
      | true => cases ctx.safety <;> first | rfl | exact fun _ => rfl
  exact .bind latched (fun _ _ r => formed_actionReply r) (by simp)

theorem handleAbort_formed (c : ToolCall) (ctx : FlightCtx) :
    (handleAbort c ctx).Ends (Formed c.requestId raises) := by
  simp only [handleAbort, Program.ends_ite]
  exact ⟨fun _ => formed_err (by decide), fun _ => latched_formed ctx .land⟩

theorem handleKill_formed (c : ToolCall) (ctx : FlightCtx) :
    (handleKill c ctx).Ends (Formed c.requestId raises) := by
  simp only [handleKill, Program.ends_ite]
  exact ⟨fun _ => formed_err (by decide), fun _ => latched_formed ctx .kill⟩

/-- The parameter's name is read before anything else. -/
def Unnamed (c : ToolCall) (what : String) : Prop :=
  c.args.valueString "name" "" = .error what

theorem handleSetParam_formed (c : ToolCall) (ctx : FlightCtx) :
    (handleSetParam c ctx).Ends (Formed c.requestId (Unnamed c)) := by
  unfold handleSetParam
  cases named : c.args.valueString "name" "" with
  | error what => exact named
  | ok name =>
    simp only [Program.ofExcept_ok, Program.done_bind, Program.ends_ite]
    refine ⟨fun _ => formed_err (by decide), fun _ => ⟨fun _ => formed_err (by decide),
      fun _ => ⟨fun _ => ?_, fun _ => ⟨fun _ => ?_, fun _ => formed_err (by decide)⟩⟩⟩⟩
    · apply withArg_formed (fun _ => requireDouble_error)
      intro v
      exact .bind (castInt_ends v) (fun _ _ r => formed_paramSetReply r) (by simp)
    · exact withArg_formed (fun _ => requireDouble_error) fun v r => formed_paramSetReply r

theorem handleGetParam_formed (c : ToolCall) (ctx : FlightCtx) :
    (handleGetParam c ctx).Ends (Formed c.requestId (Unnamed c)) := by
  unfold handleGetParam
  cases named : c.args.valueString "name" "" with
  | error what => exact named
  | ok name =>
    simp only [Program.ofExcept_ok, Program.done_bind, Program.ends_ite, getParamInt_bind,
      Program.ends_step]
    refine ⟨fun _ => formed_err (by decide), fun _ => ⟨fun _ => formed_err (by decide),
      fun _ r => ⟨fun _ => formed_ok _, fun _ => ⟨fun _ => ?_, fun _ r => ?_⟩⟩⟩⟩
    · exact formed_err (tells_append (by decide) _)
    · change Program.Ends (Formed _ _) (if r.1 = .success then _ else _)
      rw [Program.ends_ite]
      exact ⟨fun _ => formed_ok _, fun _ => formed_err (tells_append (by decide) _)⟩

theorem handleGetHealth_formed (c : ToolCall) (ctx : FlightCtx) :
    (handleGetHealth c ctx).Ends (Formed c.requestId raises) := by
  simp only [handleGetHealth, Program.ends_ite]
  exact ⟨fun _ => formed_err (by decide), fun _ _ => formed_ok _⟩

theorem handleEnableOffboard_formed (c : ToolCall) (ctx : FlightCtx) :
    (handleEnableOffboard c ctx).Ends (Formed c.requestId raises) := by
  simp only [handleEnableOffboard, Program.ends_ite]
  refine ⟨fun _ => formed_err (by decide), fun _ _ r => ?_⟩
  change Program.Ends (Formed _ _) (if r = .success ∨ r = .busy then _ else _)
  rw [Program.ends_ite]
  exact ⟨fun _ => formed_ok _, fun _ => formed_err (tells_append (by decide) _)⟩

end Formed

/-- Only the two parameter tools can raise. -/
def readsName (tool : String) : Prop := tool = "set_param" ∨ tool = "get_param"

theorem handlers_formed : ∀ entry ∈ handlers, ∀ c ctx,
    (entry.2 c ctx).Ends (Formed c.requestId fun what => readsName entry.1 ∧ Unnamed c what) := by
  have param {tool : String} {c : ToolCall} {p : Code ToolResult} (reads : readsName tool)
      (formed : p.Ends (Formed c.requestId (Unnamed c))) :
      p.Ends (Formed c.requestId fun what => readsName tool ∧ Unnamed c what) := by
    have both : Unnamed c = fun what => readsName tool ∧ Unnamed c what := by
      funext what
      simp [reads]
    exact both ▸ formed
  simp only [handlers, List.forall_mem_cons]
  refine ⟨?_, ?_, ?_, ?_, ?_, ?_, ?_, ?_, ?_, ?_, ?_, ?_, ?_, ?_, by simp⟩ <;> intro c ctx
  · exact callActionMethod_formed c ctx .arm
  · exact callActionMethod_formed c ctx .disarm
  · exact handleTakeoff_formed c ctx
  · exact callActionMethod_formed c ctx .land
  · exact callActionMethod_formed c ctx .returnToLaunch
  · exact callActionMethod_formed c ctx .hold
  · exact handleGotoNed_formed c ctx
  · exact handleSetVelocityNed_formed c ctx
  · exact handleAbort_formed c ctx
  · exact handleKill_formed c ctx
  · exact param (.inl rfl) (handleSetParam_formed c ctx)
  · exact param (.inr rfl) (handleGetParam_formed c ctx)
  · exact handleGetHealth_formed c ctx
  · exact handleEnableOffboard_formed c ctx

theorem dispatch_formed (c : ToolCall) (ctx : FlightCtx) :
    (dispatch c ctx).Ends
      (Formed c.requestId fun what => readsName c.name ∧ Unnamed c what) := by
  unfold dispatch
  cases found : handlers.lookup c.name with
  | none => exact formed_err (tells_append (by decide) _)
  | some handler => exact handlers_formed _ (mem_handlers found) c ctx

/-- So may the gate and the commit, on an arm. -/
theorem serve_formed (env : SafetyEnvelope) (ctx : FlightCtx) (c : ToolCall) :
    (serve env ctx c).Ends (Formed c.requestId fun _ => True) := by
  refine .bind (Program.ends_true _) (fun gate _ => ?_) fun e _ => trivial
  rw [Program.ends_ite]
  refine ⟨fun _ => formed_err (tells_append (by decide) _), fun _ => ?_⟩
  refine .bind (dispatch_formed c ctx) (fun r formed => ?_) fun e _ => trivial
  rw [Program.ends_ite]
  exact ⟨fun _ => .bind (Program.ends_true _) (fun _ _ => formed) fun e _ => trivial, fun _ => formed⟩

end Lexaire.Bridge
