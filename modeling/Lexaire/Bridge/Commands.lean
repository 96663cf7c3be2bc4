import Lexaire.Bridge.Gate

/-! Which operations each tool may ask for. A handler's tree is searched once,
whatever the arguments and the answers, and every later result about who issues
a command reads this table. -/
namespace Lexaire.Bridge
open Atomic

/-- The operations that the handler of a tool may perform. -/
def Op.ofTool (name : String) : Op → Bool
  | .action .arm => name == "arm"
  | .action .disarm => name == "disarm"
  | .action .takeoff | .action (.setTakeoffAltitude _) => name == "takeoff"
  | .action .land => name == "land" || name == "abort"
  | .action .returnToLaunch => name == "return_to_launch"
  | .action .hold => name == "hold"
  | .action .kill => name == "kill"
  | .offboard (.setPositionNed _) => name == "goto_ned"
  | .offboard (.setVelocityNed _) => name == "set_velocity_ned" || name == "enable_offboard"
  | .offboard .start =>
    name == "goto_ned" || name == "set_velocity_ned" || name == "enable_offboard"
  | .setParamInt _ _ | .setParamFloat _ _ => name == "set_param"
  | .getParamInt _ | .getParamFloat _ => name == "get_param"
  | .storeAborted v => v && (name == "abort" || name == "kill")
  | .storeArmedWithVoice _ | .loadAborted | .loadArmedWithVoice => false
  | .inAir | .attitudeYawDeg | .health | .isConnected | .clockNow | .unspecifiedInt => true

/-- What the readers' errors put before the name of the argument. -/
def readerErrors : List String := ["missing:", "wrong_type:"]

theorem requireDouble_error {args : Json} {key error : String}
    (failed : requireDouble args key = .error error) : ∃ start ∈ readerErrors, error = start ++ key := by
  unfold requireDouble at failed
  split at failed
  · exact ⟨"missing:", by decide, (Except.error.inj failed).symm⟩
  · split at failed
    · exact ⟨"wrong_type:", by decide, (Except.error.inj failed).symm⟩
    · cases failed

theorem optionalDouble_error {args : Json} {key error : String}
    (failed : optionalDouble args key = .error error) :
    ∃ start ∈ readerErrors, error = start ++ key := by
  unfold optionalDouble at failed
  split at failed
  · cases failed
  · split at failed
    · exact ⟨"wrong_type:", by decide, (Except.error.inj failed).symm⟩
    · cases failed

@[simp] theorem withArg_all {α : Type} {φ : Op → Prop} {requestId : String} {arg : Except String α}
    {rest : α → Code ToolResult} :
    (withArg requestId arg rest).All φ ↔ ∀ x, arg = .ok x → (rest x).All φ := by
  cases arg <;> simp [withArg]

theorem setpointYawDeg_all (ctx : FlightCtx) (yaw : Option Float) {φ : Op → Prop}
    (reads : φ .attitudeYawDeg) : (setpointYawDeg ctx yaw).All φ := by
  cases yaw <;> simp [setpointYawDeg, attitudeYawDeg, reads]

theorem castInt_all (x : Float) {φ : Op → Prop} (reads : φ .unspecifiedInt) :
    (castInt x).All φ := by
  unfold castInt
  split <;> simp [unspecifiedInt, reads]

/-- Out of range any integer may come back, and nothing is raised. -/
theorem castInt_ends (x : Float) : (castInt x).Ends fun result => ∃ i, result = .ok i := by
  unfold castInt
  split
  · split
    · exact ⟨_, rfl⟩
    · exact fun i => ⟨i, rfl⟩
  · exact fun i => ⟨i, rfl⟩

theorem latchAbort_all (ctx : FlightCtx) {name : String} (latching : name = "abort" ∨ name = "kill") :
    (latchAbort ctx).All (·.ofTool name) := by
  refine .bind ?_ fun inAir => ?_
  · simp [readInAir, inAir, Op.ofTool]
  · rcases latching with rfl | rfl <;> simp [storeAborted, Op.ofTool]

theorem handleGotoNed_all (c : ToolCall) (ctx : FlightCtx) :
    (handleGotoNed c ctx).All (·.ofTool "goto_ned") := by
  simp only [handleGotoNed, withArg_all, Program.all_ite]
  intro n _ e _ d _ yaw _
  refine ⟨fun _ => trivial, fun _ => ?_⟩
  exact .bind (setpointYawDeg_all ctx yaw rfl) fun yawDeg => by simp [Op.ofTool]

theorem handleSetVelocityNed_all (c : ToolCall) (ctx : FlightCtx) :
    (handleSetVelocityNed c ctx).All (·.ofTool "set_velocity_ned") := by
  simp only [handleSetVelocityNed, withArg_all, Program.all_ite]
  intro vx _ vy _ vz _
  refine ⟨fun _ => trivial, fun _ yaw _ => ⟨fun _ => trivial, fun _ => ?_⟩⟩
  exact .bind (setpointYawDeg_all ctx yaw rfl) fun yawDeg => by simp [Op.ofTool]

theorem handleAbort_all (c : ToolCall) (ctx : FlightCtx) :
    (handleAbort c ctx).All (·.ofTool "abort") := by
  simp only [handleAbort, Program.all_ite]
  refine ⟨fun _ => trivial, fun _ => ?_⟩
  exact .bind (latchAbort_all ctx (.inl rfl)) fun _ => by simp [Op.ofTool]

theorem handleKill_all (c : ToolCall) (ctx : FlightCtx) :
    (handleKill c ctx).All (·.ofTool "kill") := by
  simp only [handleKill, Program.all_ite]
  refine ⟨fun _ => trivial, fun _ => ?_⟩
  exact .bind (latchAbort_all ctx (.inr rfl)) fun _ => by simp [Op.ofTool]

theorem handleSetParam_all (c : ToolCall) (ctx : FlightCtx) :
    (handleSetParam c ctx).All (·.ofTool "set_param") := by
  refine .bind (by simp) fun name => ?_
  simp only [Program.all_ite, withArg_all]
  refine ⟨fun _ => trivial, fun _ => ⟨fun _ => trivial, fun _ => ⟨fun _ v _ => ?_, fun _ => ?_⟩⟩⟩
  · exact .bind (castInt_all v rfl) fun _ => by simp [Op.ofTool]
  · simp [Op.ofTool]

theorem handleGetParam_all (c : ToolCall) (ctx : FlightCtx) :
    (handleGetParam c ctx).All (·.ofTool "get_param") := by
  refine .bind (by simp) fun name => ?_
  simp [Op.ofTool]

theorem handlers_all : ∀ entry ∈ handlers, ∀ c ctx, (entry.2 c ctx).All (·.ofTool entry.1) := by
  simp only [handlers, List.forall_mem_cons]
  refine ⟨?_, ?_, ?_, ?_, ?_, ?_, handleGotoNed_all, handleSetVelocityNed_all, handleAbort_all,
    handleKill_all, handleSetParam_all, handleGetParam_all, ?_, ?_, by simp⟩ <;> intro c ctx
  · simp [handleArm, callActionMethod, Op.ofTool]
  · simp [handleDisarm, callActionMethod, Op.ofTool]
  · simp [handleTakeoff, Op.ofTool]
  · simp [handleLand, callActionMethod, Op.ofTool]
  · simp [handleRtl, callActionMethod, Op.ofTool]
  · simp [handleHold, callActionMethod, Op.ofTool]
  · simp [handleGetHealth, Op.ofTool]
  · simp [handleEnableOffboard, Op.ofTool]

theorem mem_handlers {name : String} {handler : ToolCall → FlightCtx → Code ToolResult}
    (found : handlers.lookup name = some handler) : (name, handler) ∈ handlers := by
  obtain ⟨before, after, split, _⟩ := List.lookup_eq_some_iff.mp found
  exact split ▸ by simp

theorem dispatch_all (c : ToolCall) (ctx : FlightCtx) :
    (dispatch c ctx).All (·.ofTool c.name) := by
  unfold dispatch
  cases found : handlers.lookup c.name with
  | none => trivial
  | some handler => exact handlers_all _ (mem_handlers found) c ctx

/-- No request makes a tool's handler run another tool's command. -/
theorem dispatch_performed (o : Outside) (s : SafetyState) (c : ToolCall) (ctx : FlightCtx) {op : Op}
    (performed : op ∈ ((dispatch c ctx).run o.answer s).performed) : op.ofTool c.name = true :=
  (dispatch_all c ctx).performed o.answer s op performed

end Lexaire.Bridge
