import Lexaire.Bridge.Commands
import Mathlib.Data.Option.Basic

/-! The safety envelope against the handlers. Gate and handlers read the
arguments with readers of their own; they agree on every JSON value, so what the
autopilot is handed is what the limits were checked on, narrowed to a float. -/
namespace Lexaire.Bridge
open Atomic

/-- `key` holds the number `x`; `none` says that it is absent. -/
def Reads (args : Json) (key : String) (x : Option Float) : Prop :=
  (args.find? key).map Json.number? = x.map some

variable {args : Json} {key : String}

theorem reads_some_iff {x : Float} :
    Reads args key (some x) ↔ ∃ v, args.find? key = some v ∧ v.number? = some x := by
  simp [Reads]

theorem reads_none_iff : Reads args key none ↔ args.find? key = none := by
  simp [Reads]

theorem Reads.isNaN {x : Float} (read : Reads args key (some x)) : x.isNaN = false := by
  obtain ⟨v, _, number⟩ := reads_some_iff.mp read
  exact Json.number?_isNaN number

theorem Reads.unique {x y : Option Float} (first : Reads args key x) (second : Reads args key y) :
    x = y :=
  Option.map_injective (Option.some_injective _) (first.symm.trans second)

theorem requireDouble_eq_ok_iff {x : Float} :
    requireDouble args key = .ok x ↔ Reads args key (some x) := by
  unfold requireDouble Reads
  cases args.find? key with
  | none => simp
  | some v => cases known : v.number? <;> simp [known]

theorem optionalDouble_eq_ok_iff {x : Option Float} :
    optionalDouble args key = .ok x ↔ Reads args key x := by
  unfold optionalDouble Reads
  cases args.find? key with
  | none => cases x <;> simp
  | some v => cases known : v.number? <;> cases x <;> simp [known]

/-- The gate's reader differs from the handlers' only in its default. -/
theorem asDouble_eq_some_iff {x : Float} :
    asDouble args key = some x ↔ ∃ y, Reads args key y ∧ x = y.getD 0.0 := by
  unfold asDouble
  constructor
  · intro read
    cases present : args.find? key with
    | none => exact ⟨none, reads_none_iff.mpr present, by simpa [present, eq_comm] using read⟩
    | some v => exact ⟨some x, reads_some_iff.mpr ⟨v, present, by simpa [present] using read⟩, rfl⟩
  · rintro ⟨y, read, rfl⟩
    cases y with
    | none => simp [reads_none_iff.mp read]
    | some y =>
      obtain ⟨v, present, number⟩ := reads_some_iff.mp read
      simp [present, number]

theorem asDouble_of_reads {x : Option Float} (read : Reads args key x) :
    asDouble args key = some (x.getD 0.0) :=
  asDouble_eq_some_iff.mpr ⟨x, read, rfl⟩

/-! What each limited tool needs in order to reach the autopilot. -/

structure TakeoffAdmitted (env : SafetyEnvelope) (s : SafetyState) (args : Json) (a : Float) :
    Prop where
  notAborted : s.aborted = false
  spoken : env.requireSpokenArm = true → s.armedWithVoice = true
  altitude : Reads args "altitude_m" (some a)
  positive : 0.0 < a
  ceiling : ¬ env.maxAltitudeM < a

structure GotoAdmitted (env : SafetyEnvelope) (s : SafetyState) (args : Json) (n e d : Float)
    (yaw : Option Float) : Prop where
  notAborted : s.aborted = false
  north : Reads args "n" (some n)
  east : Reads args "e" (some e)
  down : Reads args "d" (some d)
  heading : Reads args "yaw_deg" yaw
  aboveHome : d ≤ 0.0
  ceiling : ¬ env.maxAltitudeM < -d
  fence : ¬ env.geofenceRadiusM < (n * n + e * e).sqrt

/-- Absent components are `none`; gate and handler both take zero for them. -/
structure VelocityAdmitted (env : SafetyEnvelope) (s : SafetyState) (args : Json)
    (vx vy vz yaw : Option Float) : Prop where
  notAborted : s.aborted = false
  north : Reads args "vx" vx
  east : Reads args "vy" vy
  down : Reads args "vz" vz
  given : ¬ (vx = none ∧ vy = none ∧ vz = none)
  heading : Reads args "yaw_deg" yaw
  speed : ¬ env.maxVelocityMps < (vx.getD 0.0 * vx.getD 0.0 + vy.getD 0.0 * vy.getD 0.0 +
    vz.getD 0.0 * vz.getD 0.0).sqrt

theorem checkTakeoff_allow_iff {env : SafetyEnvelope} {a : Float}
    (read : Reads args "altitude_m" (some a)) :
    (checkTakeoff args env).allow = true ↔ 0.0 < a ∧ ¬ env.maxAltitudeM < a := by
  have positive : ¬ a ≤ 0.0 ↔ 0.0 < a := Double.not_le_iff (by decide +kernel) read.isNaN
  unfold checkTakeoff
  simp only [asDouble_of_reads read, Option.getD_some]
  split
  · simp_all
  · split <;> simp_all

theorem checkGotoNed_allow_iff {env : SafetyEnvelope} {n e d : Float}
    (north : Reads args "n" (some n)) (east : Reads args "e" (some e))
    (down : Reads args "d" (some d)) :
    (checkGotoNed args env).allow = true ↔ d ≤ 0.0 ∧ ¬ env.maxAltitudeM < -d ∧
      ¬ env.geofenceRadiusM < (n * n + e * e).sqrt := by
  have below : ¬ 0.0 < d ↔ d ≤ 0.0 := Double.not_lt_iff down.isNaN (by decide +kernel)
  obtain ⟨v, present, number⟩ := reads_some_iff.mp down
  unfold checkGotoNed checkDown
  simp only [present, number, asDouble_of_reads north, asDouble_of_reads east, Option.getD_some]
  by_cases aboveHome : 0.0 < d
  · simp [aboveHome, ← below]
  · by_cases ceiling : env.maxAltitudeM < -d
    · simp [aboveHome, ceiling]
    · by_cases fence : env.geofenceRadiusM < (n * n + e * e).sqrt <;>
        simp [aboveHome, ceiling, fence, ← below]

theorem checkSetVelocityNed_allow_iff {env : SafetyEnvelope} {vx vy vz : Option Float}
    (north : Reads args "vx" vx) (east : Reads args "vy" vy) (down : Reads args "vz" vz) :
    (checkSetVelocityNed args env).allow = true ↔
      ¬ env.maxVelocityMps < (vx.getD 0.0 * vx.getD 0.0 + vy.getD 0.0 * vy.getD 0.0 +
        vz.getD 0.0 * vz.getD 0.0).sqrt := by
  unfold checkSetVelocityNed
  simp only [asDouble_of_reads north, asDouble_of_reads east, asDouble_of_reads down]
  split <;> simp_all

section
variable (o : Outside) (s : SafetyState) (env : SafetyEnvelope) (ctx : FlightCtx)

theorem passes_takeoff_iff (requestId : String) (args : Json) :
    Passes env s ⟨requestId, "takeoff", args⟩ ↔ s.aborted = false ∧
      (env.requireSpokenArm = true → s.armedWithVoice = true) ∧
      (checkTakeoff args env).allow = true := by
  unfold Passes gate
  cases s.aborted <;> cases env.requireSpokenArm <;> cases s.armedWithVoice <;>
    simp [isEmergencyFollowup, checkLimits]

theorem passes_goto_iff (requestId : String) (args : Json) :
    Passes env s ⟨requestId, "goto_ned", args⟩ ↔ s.aborted = false ∧
      (checkGotoNed args env).allow = true := by
  unfold Passes gate
  cases s.aborted <;> simp [isEmergencyFollowup, checkLimits]

theorem passes_velocity_iff (requestId : String) (args : Json) :
    Passes env s ⟨requestId, "set_velocity_ned", args⟩ ↔ s.aborted = false ∧
      (checkSetVelocityNed args env).allow = true := by
  unfold Passes gate
  cases s.aborted <;> simp [isEmergencyFollowup, checkLimits]

@[simp] theorem withArg_performed {α : Type} {requestId : String} {arg : Except String α}
    {rest : α → Code ToolResult} {op : Op} :
    op ∈ ((withArg requestId arg rest).run o.answer s).performed ↔
      ∃ x, arg = .ok x ∧ op ∈ ((rest x).run o.answer s).performed := by
  cases arg <;> simp [withArg]

/-- The heading a setpoint gets: the one asked for, else the current one. -/
def Outside.heading (yaw : Option Float) : Float32 :=
  match yaw with
  | some yaw => Double.toSingle yaw
  | none => if ctx.telemetry then o.attitudeYawDeg else Double.toSingle 0.0

theorem setpointYawDeg_run (yaw : Option Float) :
    ∃ reads, (setpointYawDeg ctx yaw).run o.answer s = ⟨reads, s, .ok (o.heading ctx yaw)⟩ ∧
      ∀ op ∈ reads, op = .attitudeYawDeg := by
  cases yaw with
  | some yaw => exact ⟨[], rfl, by simp⟩
  | none =>
    unfold setpointYawDeg Outside.heading
    cases ctx.telemetry with
    | false => exact ⟨[], rfl, by simp⟩
    | true => exact ⟨[.attitudeYawDeg], rfl, by simp⟩

/-- A setpoint goes out with the heading, followed by `start()`. -/
theorem setpoint_performed (yaw : Option Float) (setpoint : Float32 → OffboardCommand)
    (finish : OffboardResult → ToolResult) (command : OffboardCommand) (starts : command ≠ .start) :
    Op.offboard command ∈ ((do
        let yawDeg ← setpointYawDeg ctx yaw
        let _ ← offboard (setpoint yawDeg)
        return finish (← offboard .start) : Code ToolResult).run o.answer s).performed ↔
      command = setpoint (o.heading ctx yaw) := by
  obtain ⟨reads, streamed, attitude⟩ := setpointYawDeg_run o s ctx yaw
  have notRead : Op.offboard command ∉ reads := fun member => nomatch attitude _ member
  simp [Program.run_bind, streamed, Program.Outcome.andThen, notRead, starts]

theorem handleTakeoff_performed (c : ToolCall) (ready : ctx.action = true) {op : Op} :
    op ∈ ((handleTakeoff c ctx).run o.answer s).performed ↔
      ∃ a, Reads c.args "altitude_m" (some a) ∧
        (op = .action (.setTakeoffAltitude (Double.toSingle a)) ∨ op = .action .takeoff) := by
  simp [handleTakeoff, ready, requireDouble_eq_ok_iff]

theorem handleGotoNed_performed (c : ToolCall) (ready : ctx.offboard = true)
    (setpoint : PositionNedYaw) :
    Op.offboard (.setPositionNed setpoint) ∈ ((handleGotoNed c ctx).run o.answer s).performed ↔
      ∃ n e d yaw, Reads c.args "n" (some n) ∧ Reads c.args "e" (some e) ∧
        Reads c.args "d" (some d) ∧ Reads c.args "yaw_deg" yaw ∧
        setpoint = ⟨Double.toSingle n, Double.toSingle e, Double.toSingle d, o.heading ctx yaw⟩ := by
  simp only [handleGotoNed, withArg_performed, ready, Bool.not_true, Bool.false_eq_true, if_false,
    requireDouble_eq_ok_iff, optionalDouble_eq_ok_iff]
  constructor
  · rintro ⟨n, north, e, east, d, down, yaw, heading, member⟩
    rw [setpoint_performed o s ctx yaw (fun yawDeg => .setPositionNed ⟨_, _, _, yawDeg⟩) _ _
      (by simp)] at member
    exact ⟨n, e, d, yaw, north, east, down, heading, by simpa using member⟩
  · rintro ⟨n, e, d, yaw, north, east, down, heading, rfl⟩
    refine ⟨n, north, e, east, d, down, yaw, heading, ?_⟩
    rw [setpoint_performed o s ctx yaw (fun yawDeg => .setPositionNed ⟨_, _, _, yawDeg⟩) _ _
      (by simp)]

theorem handleSetVelocityNed_performed (c : ToolCall) (ready : ctx.offboard = true)
    (setpoint : VelocityNedYaw) :
    Op.offboard (.setVelocityNed setpoint) ∈
        ((handleSetVelocityNed c ctx).run o.answer s).performed ↔
      ∃ vx vy vz yaw, Reads c.args "vx" vx ∧ Reads c.args "vy" vy ∧ Reads c.args "vz" vz ∧
        ¬ (vx = none ∧ vy = none ∧ vz = none) ∧ Reads c.args "yaw_deg" yaw ∧
        setpoint = ⟨Double.toSingle (vx.getD 0.0), Double.toSingle (vy.getD 0.0),
          Double.toSingle (vz.getD 0.0), o.heading ctx yaw⟩ := by
  simp only [handleSetVelocityNed, withArg_performed, ready, Bool.not_true, Bool.false_eq_true,
    if_false, optionalDouble_eq_ok_iff]
  constructor
  · rintro ⟨vx, north, vy, east, vz, down, member⟩
    by_cases given : vx = none ∧ vy = none ∧ vz = none
    · simp [given] at member
    · rw [if_neg (by simpa [and_assoc] using given), withArg_performed] at member
      obtain ⟨yaw, heading, member⟩ := member
      rw [setpoint_performed o s ctx yaw (fun yawDeg => .setVelocityNed ⟨_, _, _, yawDeg⟩) _ _
        (by simp)] at member
      exact ⟨vx, vy, vz, yaw, north, east, down, given, optionalDouble_eq_ok_iff.mp heading,
        by simpa using member⟩
  · rintro ⟨vx, vy, vz, yaw, north, east, down, given, heading, rfl⟩
    refine ⟨vx, north, vy, east, vz, down, ?_⟩
    rw [if_neg (by simpa [and_assoc] using given), withArg_performed]
    refine ⟨yaw, optionalDouble_eq_ok_iff.mpr heading, ?_⟩
    rw [setpoint_performed o s ctx yaw (fun yawDeg => .setVelocityNed ⟨_, _, _, yawDeg⟩) _ _
      (by simp)]

theorem takeoff_served (c : ToolCall) (ready : ctx.action = true) {op : Op} (command : op.isCommand)
    (own : ∀ name, op.ofTool name = (name == "takeoff")) :
    op ∈ ((serve env ctx c).run o.answer s).performed ↔
      c.name = "takeoff" ∧ ∃ a, TakeoffAdmitted env s c.args a ∧
        (op = .action (.setTakeoffAltitude (Double.toSingle a)) ∨ op = .action .takeoff) := by
  obtain ⟨requestId, name, args⟩ := c
  rw [serve_command_iff o s env ctx _ command]
  constructor
  · rintro ⟨passes, member⟩
    have tool := dispatch_performed o s _ ctx member
    rw [own, beq_iff_eq] at tool
    subst tool
    obtain ⟨notAborted, spoken, allowed⟩ := (passes_takeoff_iff s env requestId args).mp passes
    obtain ⟨a, read, same⟩ := (handleTakeoff_performed o s ctx _ ready).mp member
    obtain ⟨positive, ceiling⟩ := (checkTakeoff_allow_iff read).mp allowed
    exact ⟨rfl, a, ⟨notAborted, spoken, read, positive, ceiling⟩, same⟩
  · rintro ⟨rfl, a, admitted, same⟩
    have allowed := (checkTakeoff_allow_iff admitted.altitude).mpr
      ⟨admitted.positive, admitted.ceiling⟩
    exact ⟨(passes_takeoff_iff s env requestId args).mpr
        ⟨admitted.notAborted, admitted.spoken, allowed⟩,
      (handleTakeoff_performed o s ctx _ ready).mpr ⟨a, admitted.altitude, same⟩⟩

theorem goto_served (c : ToolCall) (ready : ctx.offboard = true) (setpoint : PositionNedYaw) :
    Op.offboard (.setPositionNed setpoint) ∈ ((serve env ctx c).run o.answer s).performed ↔
      c.name = "goto_ned" ∧ ∃ n e d yaw, GotoAdmitted env s c.args n e d yaw ∧
        setpoint = ⟨Double.toSingle n, Double.toSingle e, Double.toSingle d, o.heading ctx yaw⟩ := by
  obtain ⟨requestId, name, args⟩ := c
  rw [serve_command_iff o s env ctx _ rfl]
  constructor
  · rintro ⟨passes, member⟩
    have tool := dispatch_performed o s _ ctx member
    simp only [Op.ofTool, beq_iff_eq] at tool
    subst tool
    obtain ⟨notAborted, allowed⟩ := (passes_goto_iff s env requestId args).mp passes
    obtain ⟨n, e, d, yaw, north, east, down, heading, same⟩ :=
      (handleGotoNed_performed o s ctx _ ready setpoint).mp member
    obtain ⟨aboveHome, ceiling, fence⟩ := (checkGotoNed_allow_iff north east down).mp allowed
    exact ⟨rfl, n, e, d, yaw,
      ⟨notAborted, north, east, down, heading, aboveHome, ceiling, fence⟩, same⟩
  · rintro ⟨rfl, n, e, d, yaw, admitted, same⟩
    have allowed := (checkGotoNed_allow_iff admitted.north admitted.east admitted.down).mpr
      ⟨admitted.aboveHome, admitted.ceiling, admitted.fence⟩
    exact ⟨(passes_goto_iff s env requestId args).mpr ⟨admitted.notAborted, allowed⟩,
      (handleGotoNed_performed o s ctx _ ready setpoint).mpr
        ⟨n, e, d, yaw, admitted.north, admitted.east, admitted.down, admitted.heading, same⟩⟩

/-- `enable_offboard` streams a zero setpoint of its own. -/
theorem velocity_served (c : ToolCall) (ready : ctx.offboard = true) (setpoint : VelocityNedYaw) :
    Op.offboard (.setVelocityNed setpoint) ∈ ((serve env ctx c).run o.answer s).performed ↔
      (c.name = "set_velocity_ned" ∧ ∃ vx vy vz yaw, VelocityAdmitted env s c.args vx vy vz yaw ∧
        setpoint = ⟨Double.toSingle (vx.getD 0.0), Double.toSingle (vy.getD 0.0),
          Double.toSingle (vz.getD 0.0), o.heading ctx yaw⟩) ∨
      (c.name = "enable_offboard" ∧ s.aborted = false ∧
        setpoint = ⟨Double.toSingle 0.0, Double.toSingle 0.0, Double.toSingle 0.0,
          Double.toSingle 0.0⟩) := by
  obtain ⟨requestId, name, args⟩ := c
  have streamed : Op.offboard (.setVelocityNed setpoint) ∈
      ((handleEnableOffboard ⟨requestId, "enable_offboard", args⟩ ctx).run o.answer s).performed ↔
        setpoint = ⟨Double.toSingle 0.0, Double.toSingle 0.0, Double.toSingle 0.0,
          Double.toSingle 0.0⟩ := by
    simp only [handleEnableOffboard, ready, Bool.not_true, Bool.false_eq_true, if_false,
      offboard_bind, Program.run_step, Outside.answer]
    by_cases started : o.offboard .start = .success ∨ o.offboard .start = .busy <;> simp [started]
  have passes_enable : Passes env s ⟨requestId, "enable_offboard", args⟩ ↔ s.aborted = false := by
    unfold Passes gate
    cases s.aborted <;> simp [isEmergencyFollowup, checkLimits]
  rw [serve_command_iff o s env ctx _ rfl]
  constructor
  · rintro ⟨passes, member⟩
    have tool := dispatch_performed o s _ ctx member
    simp only [Op.ofTool, Bool.or_eq_true, beq_iff_eq] at tool
    rcases tool with rfl | rfl
    · obtain ⟨notAborted, allowed⟩ := (passes_velocity_iff s env requestId args).mp passes
      obtain ⟨vx, vy, vz, yaw, north, east, down, given, heading, same⟩ :=
        (handleSetVelocityNed_performed o s ctx _ ready setpoint).mp member
      have speed := (checkSetVelocityNed_allow_iff north east down).mp allowed
      exact .inl ⟨rfl, vx, vy, vz, yaw,
        ⟨notAborted, north, east, down, given, heading, speed⟩, same⟩
    · exact .inr ⟨rfl, passes_enable.mp passes, streamed.mp member⟩
  · rintro (⟨rfl, vx, vy, vz, yaw, admitted, same⟩ | ⟨rfl, notAborted, same⟩)
    · have allowed := (checkSetVelocityNed_allow_iff admitted.north admitted.east
        admitted.down).mpr admitted.speed
      exact ⟨(passes_velocity_iff s env requestId args).mpr ⟨admitted.notAborted, allowed⟩,
        (handleSetVelocityNed_performed o s ctx _ ready setpoint).mpr
          ⟨vx, vy, vz, yaw, admitted.north, admitted.east, admitted.down, admitted.given,
            admitted.heading, same⟩⟩
    · exact ⟨passes_enable.mpr notAborted, streamed.mpr same⟩

/-- The envelope is sound and exact: each limited command runs iff the request
is admitted, and carries the numbers the limits were checked on. -/
theorem envelope_exact (c : ToolCall) (action : ctx.action = true) (offboard : ctx.offboard = true) :
    let performed := ((serve env ctx c).run o.answer s).performed
    (Op.action .takeoff ∈ performed ↔
      c.name = "takeoff" ∧ ∃ a, TakeoffAdmitted env s c.args a) ∧
    (∀ h, Op.action (.setTakeoffAltitude h) ∈ performed ↔
      c.name = "takeoff" ∧ ∃ a, TakeoffAdmitted env s c.args a ∧ h = Double.toSingle a) ∧
    (∀ setpoint, Op.offboard (.setPositionNed setpoint) ∈ performed ↔
      c.name = "goto_ned" ∧ ∃ n e d yaw, GotoAdmitted env s c.args n e d yaw ∧
        setpoint = ⟨Double.toSingle n, Double.toSingle e, Double.toSingle d, o.heading ctx yaw⟩) ∧
    (∀ setpoint, Op.offboard (.setVelocityNed setpoint) ∈ performed ↔
      (c.name = "set_velocity_ned" ∧ ∃ vx vy vz yaw, VelocityAdmitted env s c.args vx vy vz yaw ∧
        setpoint = ⟨Double.toSingle (vx.getD 0.0), Double.toSingle (vy.getD 0.0),
          Double.toSingle (vz.getD 0.0), o.heading ctx yaw⟩) ∨
      (c.name = "enable_offboard" ∧ s.aborted = false ∧
        setpoint = ⟨Double.toSingle 0.0, Double.toSingle 0.0, Double.toSingle 0.0,
          Double.toSingle 0.0⟩)) := by
  refine ⟨?_, fun h => ?_, goto_served o s env ctx c offboard, velocity_served o s env ctx c offboard⟩
  · rw [takeoff_served o s env ctx c action rfl fun _ => rfl]
    simp
  · rw [takeoff_served o s env ctx c action rfl fun _ => rfl]
    simp

end

/-- The wire's number 4.9, which no float equals. -/
def sampleAltitude : Json := .double ⟨4.9, by decide +kernel⟩

theorem envelope_exact_takeoff :
    Op.action .takeoff ∈ ((serve {} {} ⟨"1", "takeoff", .object [("altitude_m", sampleAltitude)]⟩).run
      Outside.nominal.answer { armedWithVoice := true }).performed :=
  (envelope_exact .nominal { armedWithVoice := true } {} {}
    ⟨"1", "takeoff", .object [("altitude_m", sampleAltitude)]⟩ rfl rfl).1.mpr
    ⟨rfl, 4.9, rfl, fun _ => rfl, rfl, by decide +kernel, by decide +kernel⟩

/-- Narrowing hands over an altitude that is not the checked one and lies above
the limit; a negative radius closes the fence even at home, although no square
is below zero; and a limit that is not a number is no limit. -/
theorem narrowed_altitude_and_odd_limits :
    (Op.action (.setTakeoffAltitude (Double.toSingle 4.9)) ∈
        ((serve { maxAltitudeM := 4.9 } {}
          ⟨"1", "takeoff", .object [("altitude_m", sampleAltitude)]⟩).run
          Outside.nominal.answer { armedWithVoice := true }).performed ∧
      4.9 < Double.ofSingle (Double.toSingle 4.9)) ∧
    ((∀ setpoint, Op.offboard (.setPositionNed setpoint) ∉
        ((serve { geofenceRadiusM := -1.0 } {}
          ⟨"1", "goto_ned", .object [("n", .integer 0), ("e", .integer 0), ("d", .integer 0)]⟩).run
          Outside.nominal.answer {}).performed) ∧
      (0.0 * 0.0 + 0.0 * 0.0 : Float) ≤ -1.0 * -1.0) ∧
    (Op.action .takeoff ∈
        ((serve { maxAltitudeM := 0.0 / 0.0 } {}
          ⟨"1", "takeoff", .object [("altitude_m", sampleAltitude)]⟩).run
          Outside.nominal.answer { armedWithVoice := true }).performed ∧
      ¬ (4.9 : Float) ≤ 0.0 / 0.0) := by
  have denied : ((serve { geofenceRadiusM := -1.0 } {}
      ⟨"1", "goto_ned", .object [("n", .integer 0), ("e", .integer 0), ("d", .integer 0)]⟩).run
      Outside.nominal.answer {}).performed = [.loadAborted] := by decide +kernel
  refine ⟨⟨by decide +kernel, by decide +kernel⟩, ⟨?_, by decide +kernel⟩,
    by decide +kernel, by decide +kernel⟩
  intro setpoint
  simp [denied]

end Lexaire.Bridge
