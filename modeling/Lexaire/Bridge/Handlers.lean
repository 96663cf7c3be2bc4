import Lexaire.Bridge.Safety

/-! The tool handlers (`handlers.cpp`). The gate has passed a call by the time
its handler runs, but the handlers read the arguments again on their own. -/
namespace Lexaire.Bridge
open Atomic

/-- Which plugins the bridge holds; `run()` creates all of them before its loop. -/
structure FlightCtx where
  action : Bool := true
  offboard : Bool := true
  param : Bool := true
  telemetry : Bool := true
  safety : Bool := true

/-- A required number, or the reply's error text. -/
def requireDouble (args : Json) (key : String) : Except String Float :=
  match args.find? key with
  | none => .error ("missing:" ++ key)
  | some v =>
    match v.number? with
    | none => .error ("wrong_type:" ++ key)
    | some x => .ok x

/-- An optional number; only a present value of the wrong type is an error. -/
def optionalDouble (args : Json) (key : String) : Except String (Option Float) :=
  match args.find? key with
  | none => .ok none
  | some v =>
    match v.number? with
    | none => .error ("wrong_type:" ++ key)
    | some x => .ok (some x)

def actionResultToString : ActionResult → String
  | .success => "success"
  | .noSystem => "no_system"
  | .connectionError => "connection_error"
  | .busy => "busy"
  | .commandDenied => "command_denied"
  | .commandDeniedLandedStateUnknown => "command_denied_landed_state_unknown"
  | .commandDeniedNotLanded => "command_denied_not_landed"
  | .timeout => "timeout"
  | .vtolTransitionSupportUnknown => "vtol_unknown"
  | .noVtolTransitionSupport => "no_vtol"
  | .parameterError => "parameter_error"
  | .unsupported => "unsupported"
  | .other => "unknown"

def offboardResultToString : OffboardResult → String
  | .success => "success"
  | .noSystem => "no_system"
  | .connectionError => "connection_error"
  | .busy => "busy"
  | .commandDenied => "command_denied"
  | .timeout => "timeout"
  | .noSetpointSet => "no_setpoint"
  | .other => "unknown"

def paramResultToString : ParamResult → String
  | .success => "success"
  | .timeout => "timeout"
  | .connectionError => "connection_error"
  | .wrongType => "wrong_type"
  | .paramNameTooLong => "param_name_too_long"
  | .noSystem => "no_system"
  | .paramValueTooLong => "param_value_too_long"
  | .other => "unknown"

def ok (requestId : String) (data : Json := .object []) : ToolResult :=
  { requestId, ok := true, data }

def err (requestId : String) (error : String) : ToolResult :=
  { requestId, error }

/-- An argument reader's error ends the handler with that error. -/
def withArg {α : Type} (requestId : String) (arg : Except String α) (rest : α → Code ToolResult) :
    Code ToolResult :=
  match arg with
  | .error e => return err requestId e
  | .ok x => rest x

def actionReply (requestId : String) (r : ActionResult) : ToolResult :=
  if r = .success then ok requestId else err requestId (actionResultToString r)

/-- `Busy` from `start()` means the setpoints are already streaming. -/
def offboardReply (requestId : String) (r : OffboardResult) : ToolResult :=
  if r = .success ∨ r = .busy then ok requestId else err requestId (offboardResultToString r)

/-- The argument-less Action methods: arm, disarm, land, return to launch, hold. -/
def callActionMethod (c : ToolCall) (ctx : FlightCtx) (method : Code ActionResult) :
    Code ToolResult := do
  if !ctx.action then return err c.requestId "action_not_initialized"
  return actionReply c.requestId (← method)

def handleArm (c : ToolCall) (ctx : FlightCtx) : Code ToolResult := callActionMethod c ctx (action .arm)
def handleDisarm (c : ToolCall) (ctx : FlightCtx) : Code ToolResult := callActionMethod c ctx (action .disarm)
def handleLand (c : ToolCall) (ctx : FlightCtx) : Code ToolResult := callActionMethod c ctx (action .land)
def handleRtl (c : ToolCall) (ctx : FlightCtx) : Code ToolResult := callActionMethod c ctx (action .returnToLaunch)
def handleHold (c : ToolCall) (ctx : FlightCtx) : Code ToolResult := callActionMethod c ctx (action .hold)

def handleTakeoff (c : ToolCall) (ctx : FlightCtx) : Code ToolResult :=
  withArg c.requestId (requireDouble c.args "altitude_m") fun altitude => do
    if !ctx.action then return err c.requestId "action_not_initialized"
    let _ ← action (.setTakeoffAltitude (Double.toSingle altitude))
    return actionReply c.requestId (← action .takeoff)

/-- The heading of a setpoint: the one asked for, else the current one. -/
def setpointYawDeg (ctx : FlightCtx) : Option Float → Code Float32
  | some yaw => return Double.toSingle yaw
  | none => if ctx.telemetry then attitudeYawDeg else return Double.toSingle 0.0

def handleGotoNed (c : ToolCall) (ctx : FlightCtx) : Code ToolResult :=
  withArg c.requestId (requireDouble c.args "n") fun n =>
  withArg c.requestId (requireDouble c.args "e") fun e =>
  withArg c.requestId (requireDouble c.args "d") fun d =>
  withArg c.requestId (optionalDouble c.args "yaw_deg") fun yaw => do
    if !ctx.offboard then return err c.requestId "offboard_not_initialized"
    let yawDeg ← setpointYawDeg ctx yaw
    let _ ← offboard (.setPositionNed
      ⟨Double.toSingle n, Double.toSingle e, Double.toSingle d, yawDeg⟩)
    return offboardReply c.requestId (← offboard .start)

/-- All three components absent is an error; absent ones otherwise read as zero. -/
def handleSetVelocityNed (c : ToolCall) (ctx : FlightCtx) : Code ToolResult :=
  withArg c.requestId (optionalDouble c.args "vx") fun vx =>
  withArg c.requestId (optionalDouble c.args "vy") fun vy =>
  withArg c.requestId (optionalDouble c.args "vz") fun vz =>
    if vx.isNone && vy.isNone && vz.isNone then return err c.requestId "missing_velocity_component"
    else withArg c.requestId (optionalDouble c.args "yaw_deg") fun yaw => do
      if !ctx.offboard then return err c.requestId "offboard_not_initialized"
      let yawDeg ← setpointYawDeg ctx yaw
      let _ ← offboard (.setVelocityNed ⟨Double.toSingle (vx.getD 0.0), Double.toSingle (vy.getD 0.0),
        Double.toSingle (vz.getD 0.0), yawDeg⟩)
      return offboardReply c.requestId (← offboard .start)

def readInAir (ctx : FlightCtx) : Code Bool :=
  if ctx.telemetry then inAir else return false

/-- The abort latch is stored before the command, and only in the air: on the
ground no falling edge of `armed` would ever clear it. -/
def latchAbort (ctx : FlightCtx) : Code Unit := do
  if (← readInAir ctx) && ctx.safety then storeAborted true

def handleAbort (c : ToolCall) (ctx : FlightCtx) : Code ToolResult := do
  if !ctx.action then return err c.requestId "action_not_initialized"
  latchAbort ctx
  return actionReply c.requestId (← action .land)

def handleKill (c : ToolCall) (ctx : FlightCtx) : Code ToolResult := do
  if !ctx.action then return err c.requestId "action_not_initialized"
  latchAbort ctx
  return actionReply c.requestId (← action .kill)

/-- `static_cast<int>`, defined only where the integer part is an `int`. -/
def castInt (x : Float) : Code Int :=
  match Double.truncate? x with
  | some i => if -2 ^ 31 ≤ i ∧ i < 2 ^ 31 then return i else unspecifiedInt
  | none => unspecifiedInt

def paramSetReply (requestId : String) (r : ParamResult) : ToolResult :=
  if r = .success then ok requestId
  else err requestId ("param_set_failed:" ++ paramResultToString r)

def handleSetParam (c : ToolCall) (ctx : FlightCtx) : Code ToolResult := do
  let name ← Program.ofExcept (c.args.valueString "name" "")
  if name = "" then return err c.requestId "missing_param_name"
  if !ctx.param then return err c.requestId "param_not_initialized"
  if (c.args.find? "int_value").isSome then
    withArg c.requestId (requireDouble c.args "int_value") fun v => do
      let iv ← castInt v
      return paramSetReply c.requestId (← setParamInt name iv)
  else if (c.args.find? "float_value").isSome then
    withArg c.requestId (requireDouble c.args "float_value") fun v => do
      return paramSetReply c.requestId (← setParamFloat name (Double.toSingle v))
  else return err c.requestId "missing_value"

/-- Streams a zero velocity and asks for OFFBOARD; PX4 switches when it sees it. -/
def handleEnableOffboard (c : ToolCall) (ctx : FlightCtx) : Code ToolResult := do
  if !ctx.offboard then return err c.requestId "offboard_not_initialized"
  let zero := Double.toSingle 0.0
  let _ ← offboard (.setVelocityNed ⟨zero, zero, zero, zero⟩)
  let r ← offboard .start
  if r = .success ∨ r = .busy then return ok c.requestId
  return err c.requestId ("offboard_start_failed:" ++ offboardResultToString r)

/-- The float read is tried on a type mismatch only. -/
def handleGetParam (c : ToolCall) (ctx : FlightCtx) : Code ToolResult := do
  let name ← Program.ofExcept (c.args.valueString "name" "")
  if name = "" then return err c.requestId "missing_param_name"
  if !ctx.param then return err c.requestId "param_not_initialized"
  let (r, v) ← getParamInt name
  if r = .success then return ok c.requestId (.object [("int_value", .integer v)])
  if r ≠ .wrongType then
    return err c.requestId ("param_get_failed:" ++ paramResultToString r)
  let (r2, v2) ← getParamFloat name
  if r2 = .success then return ok c.requestId (.object [("float_value", jsonOfSingle v2)])
  return err c.requestId ("param_get_failed:" ++ paramResultToString r2)

def handleGetHealth (c : ToolCall) (ctx : FlightCtx) : Code ToolResult := do
  if !ctx.telemetry then return err c.requestId "telemetry_not_initialized"
  let h ← health
  return ok c.requestId (.object [
    ("is_armable", .boolean h.isArmable),
    ("is_gyrometer_calibration_ok", .boolean h.isGyrometerCalibrationOk),
    ("is_accelerometer_calibration_ok", .boolean h.isAccelerometerCalibrationOk),
    ("is_magnetometer_calibration_ok", .boolean h.isMagnetometerCalibrationOk),
    ("is_local_position_ok", .boolean h.isLocalPositionOk),
    ("is_global_position_ok", .boolean h.isGlobalPositionOk),
    ("is_home_position_ok", .boolean h.isHomePositionOk)])

/-- `kHandlers`. -/
def handlers : List (String × (ToolCall → FlightCtx → Code ToolResult)) := [
  ("arm", handleArm),
  ("disarm", handleDisarm),
  ("takeoff", handleTakeoff),
  ("land", handleLand),
  ("return_to_launch", handleRtl),
  ("hold", handleHold),
  ("goto_ned", handleGotoNed),
  ("set_velocity_ned", handleSetVelocityNed),
  ("abort", handleAbort),
  ("kill", handleKill),
  ("set_param", handleSetParam),
  ("get_param", handleGetParam),
  ("get_health", handleGetHealth),
  ("enable_offboard", handleEnableOffboard)]

def dispatch (c : ToolCall) (ctx : FlightCtx) : Code ToolResult :=
  match handlers.lookup c.name with
  | none => return err c.requestId ("unknown_tool: " ++ c.name)
  | some handler => handler c ctx

end Lexaire.Bridge
