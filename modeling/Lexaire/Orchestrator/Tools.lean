import Lexaire.Bridge.Envelope
import Lexaire.Core.JsonSchema

/-! The tools that the VLM is told of (`tools.py`), and what their schemas say of a call's
arguments in the terms of the bridge's readers. -/
namespace Lexaire.Orchestrator
open Bridge (Reads)

structure ToolSchema where
  name : String
  description : String
  parameters : Json

/-- The schema of a number, with what it is for. -/
def numberSchema (description : String) : Json :=
  .object [("type", .string "number"), ("description", .string description)]

def noParameters : Json := .objectSchema [] [] []

def yawDegSchema : Json := numberSchema
  "Absolute heading in degrees (0=North, CW positive). Omit to hold current heading."

def takeoffParameters : Json := .objectSchema
  [("altitude_m", numberSchema "Target altitude AGL in meters. Must be <= safety.max_altitude_m.")]
  ["altitude_m"] []

def gotoNedParameters : Json := .objectSchema
  [("n", numberSchema "North offset, meters."),
    ("e", numberSchema "East offset, meters."),
    ("d", numberSchema "Down offset, meters (negative = above)."),
    ("yaw_deg", yawDegSchema)]
  ["n", "e", "d"] []

def setVelocityNedParameters : Json := .objectSchema
  [("vx", numberSchema "North velocity (m/s)."),
    ("vy", numberSchema "East velocity (m/s)."),
    ("vz", numberSchema "Down velocity (m/s); negative = ascend."),
    ("yaw_deg", yawDegSchema)]
  []
  [("anyOf", .array [
    .object [("required", .array [.string "vx"])],
    .object [("required", .array [.string "vy"])],
    .object [("required", .array [.string "vz"])]])]

/-- `tool_schemas()`. -/
def toolSchemas : List ToolSchema := [
  { name := "arm"
    description := "Arm the vehicle (requires the pilot's spoken arm confirmation)."
    parameters := noParameters },
  { name := "disarm"
    description := "Disarm the vehicle. Only on the ground."
    parameters := noParameters },
  { name := "takeoff"
    description := "Take off to the given altitude (meters above home)."
    parameters := takeoffParameters },
  { name := "land"
    description := "Land in place at the current position."
    parameters := noParameters },
  { name := "return_to_launch"
    description := "Return to the home position and land."
    parameters := noParameters },
  { name := "hold"
    description := "Switch to HOLD — hover at the current position."
    parameters := noParameters },
  { name := "goto_ned"
    description := "Fly to a position in the local NED (north-east-down) frame relative to home. " ++
      "Negative `d` means above home (d = -height_m)."
    parameters := gotoNedParameters },
  { name := "set_velocity_ned"
    description := "Command a NED velocity setpoint (m/s) for smooth motion. " ++
      "At least one of vx/vy/vz must be set — the bridge rejects " ++
      "a no-arg call to avoid silently stopping an active " ++
      "autonomous mode. \x7bvx:0, vy:0, vz:0\x7d is a legitimate hover."
    parameters := setVelocityNedParameters },
  { name := "abort"
    description := "Safe stop: trigger an immediate controlled landing. Use this when the pilot " ++
      "says 'abort'/'stop' or you detect an unsafe situation that needs the vehicle " ++
      "on the ground now. This is the right tool for almost all emergencies."
    parameters := noParameters },
  { name := "kill"
    description := "Emergency motor-off: cuts power to the motors instantly. The drone falls. " ++
      "Use ONLY when a controlled landing is unsafe (e.g. the drone is about to " ++
      "strike a person and you must drop it now). For everything else, use `abort`."
    parameters := noParameters }]

/-- Tools of the bridge that the VLM is not told of. -/
def operatorOnly : List String := ["set_param", "get_param", "get_health", "enable_offboard"]

/-- The table of the bridge is the one of the VLM, in another order, and the operator's. -/
theorem handlers_listed : (Bridge.handlers.map Prod.fst).Perm (toolSchemas.map (·.name) ++ operatorOnly) := by
  decide

/-! ## What the schemas ask for -/

section
variable {args : Json} {key : String}

theorem fits_numberSchema_iff {description : String} {value : Json} :
    (numberSchema description).fits value = true ↔ ∃ x, value.number? = some x := by
  rw [← Json.hasType_number_iff]
  simp [numberSchema, Json.fits, Json.fitsKeywords, Json.fitsKeyword]

/-- What the schema takes for a number, the bridge reads. -/
theorem number_iff_reads {description : String} :
    (∀ member, args.find? key = some member → (numberSchema description).fits member = true) ↔
      ∃ x, Reads args key x := by
  simp only [fits_numberSchema_iff]
  constructor
  · intro number
    cases present : args.find? key with
    | none => exact ⟨none, Bridge.reads_none_iff.mpr present⟩
    | some member =>
      obtain ⟨x, number⟩ := number member present
      exact ⟨some x, Bridge.reads_some_iff.mpr ⟨member, present, number⟩⟩
  · rintro ⟨x, read⟩ member present
    cases x with
    | none =>
      rw [Bridge.reads_none_iff.mp read] at present
      cases present
    | some x =>
      obtain ⟨found, there, number⟩ := Bridge.reads_some_iff.mp read
      obtain rfl := Option.some.inj (there.symm.trans present)
      exact ⟨x, number⟩

theorem isSome_of_reads {x : Option Float} (read : Reads args key x) :
    (args.find? key).isSome = x.isSome := by
  have both := congrArg Option.isSome read
  simpa using both

theorem reads_required {x : Option Float} (read : Reads args key x)
    (required : (args.find? key).isSome = true) : ∃ x, Reads args key (some x) := by
  rw [isSome_of_reads read] at required
  obtain ⟨x, rfl⟩ := Option.isSome_iff_exists.mp required
  exact ⟨x, read⟩

theorem fits_noParameters (members : List (String × Json)) :
    noParameters.fits (.object members) = true := by
  rw [noParameters, Json.fits_objectSchema_iff]
  exact ⟨⟨members, rfl⟩, by simp, by simp, rfl⟩

variable {members : List (String × Json)}

theorem fits_takeoff_iff : takeoffParameters.fits (.object members) = true ↔
    ∃ altitude, Reads (.object members) "altitude_m" (some altitude) := by
  simp only [takeoffParameters, Json.fits_objectSchema_iff, List.forall_mem_cons, number_iff_reads]
  constructor
  · rintro ⟨-, ⟨⟨x, read⟩, -⟩, ⟨required, -⟩, -⟩
    exact reads_required read required
  · rintro ⟨altitude, read⟩
    exact ⟨⟨members, rfl⟩, ⟨⟨_, read⟩, by simp⟩, ⟨isSome_of_reads read, by simp⟩, rfl⟩

theorem fits_gotoNed_iff : gotoNedParameters.fits (.object members) = true ↔
    ∃ n e d yaw, Reads (.object members) "n" (some n) ∧ Reads (.object members) "e" (some e) ∧
      Reads (.object members) "d" (some d) ∧ Reads (.object members) "yaw_deg" yaw := by
  simp only [gotoNedParameters, yawDegSchema, Json.fits_objectSchema_iff, List.forall_mem_cons,
    number_iff_reads]
  constructor
  · rintro ⟨-, ⟨⟨_, north⟩, ⟨_, east⟩, ⟨_, down⟩, ⟨yaw, heading⟩, -⟩, ⟨hasN, hasE, hasD, -⟩, -⟩
    obtain ⟨n, north⟩ := reads_required north hasN
    obtain ⟨e, east⟩ := reads_required east hasE
    obtain ⟨d, down⟩ := reads_required down hasD
    exact ⟨n, e, d, yaw, north, east, down, heading⟩
  · rintro ⟨n, e, d, yaw, north, east, down, heading⟩
    exact ⟨⟨members, rfl⟩, ⟨⟨_, north⟩, ⟨_, east⟩, ⟨_, down⟩, ⟨_, heading⟩, by simp⟩,
      ⟨isSome_of_reads north, isSome_of_reads east, isSome_of_reads down, by simp⟩, rfl⟩

/-- One of the three components is enough, and none is not. -/
theorem fits_setVelocityNed_iff : setVelocityNedParameters.fits (.object members) = true ↔
    ∃ vx vy vz yaw, Reads (.object members) "vx" vx ∧ Reads (.object members) "vy" vy ∧
      Reads (.object members) "vz" vz ∧ Reads (.object members) "yaw_deg" yaw ∧
      ¬ (vx = none ∧ vy = none ∧ vz = none) := by
  have some_of (key : String) : (Json.object [("required", .array [.string key])]).fits (.object members) =
      ((Json.object members).find? key).isSome := by
    simp [Json.fits, Json.fitsKeywords, Json.fitsKeyword, Json.hasMember, Json.find?]
  simp only [setVelocityNedParameters, yawDegSchema, Json.fits_objectSchema_iff, List.forall_mem_cons,
    number_iff_reads]
  have given : Json.fitsKeywords [("anyOf", .array [
      .object [("required", .array [.string "vx"])], .object [("required", .array [.string "vy"])],
      .object [("required", .array [.string "vz"])]])] (.object members) =
      (((Json.object members).find? "vx").isSome || (((Json.object members).find? "vy").isSome ||
        ((Json.object members).find? "vz").isSome)) := by
    simp [Json.fitsKeywords, Json.fitsKeyword, Json.fitsAny, some_of]
  rw [given]
  constructor
  · rintro ⟨-, ⟨⟨vx, north⟩, ⟨vy, east⟩, ⟨vz, down⟩, ⟨yaw, heading⟩, -⟩, -, given⟩
    refine ⟨vx, vy, vz, yaw, north, east, down, heading, ?_⟩
    rintro ⟨rfl, rfl, rfl⟩
    simp [isSome_of_reads north, isSome_of_reads east, isSome_of_reads down] at given
  · rintro ⟨vx, vy, vz, yaw, north, east, down, heading, given⟩
    refine ⟨⟨members, rfl⟩, ⟨⟨_, north⟩, ⟨_, east⟩, ⟨_, down⟩, ⟨_, heading⟩, by simp⟩, by simp, ?_⟩
    rw [isSome_of_reads north, isSome_of_reads east, isSome_of_reads down]
    cases vx <;> cases vy <;> cases vz <;> simp_all

end

end Lexaire.Orchestrator
