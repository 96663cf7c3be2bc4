import Lexaire.Bridge.Mavsdk
import Lexaire.Bridge.Messages

/-! The safety envelope below the tool-call layer (`safety.hpp`). The gate reads
the latches with atomic loads and only as far as its tests get; the limits are a
pure check on the arguments. -/
namespace Lexaire.Bridge
open Atomic

structure SafetyEnvelope where
  maxAltitudeM : Float := 5.0
  geofenceRadiusM : Float := 10.0
  maxVelocityMps : Float := 1.5
  requireSpokenArm : Bool := true

structure SafetyDecision where
  allow : Bool := true
  reason : String := ""
deriving DecidableEq

def deny (reason : String) : SafetyDecision := { allow := false, reason }

def isEmergencyFollowup (name : String) : Bool :=
  name == "abort" || name == "kill" || name == "land" || name == "disarm"

/-- The two tests on the spoken-arm latch. The arm's own `voice_confirmed` is
read last, so it is not read at all when the latch or the envelope decides. -/
def spokenArmMissing (name : String) (args : Json) (env : SafetyEnvelope) : Code Bool :=
  if name == "arm" && env.requireSpokenArm then do
    if ← loadArmedWithVoice then return false
    return !(← Program.ofExcept (args.valueBool "voice_confirmed" false))
  else if name == "takeoff" && env.requireSpokenArm then do
    return !(← loadArmedWithVoice)
  else return false

/-- `as_d`: an absent key reads as zero, a wrong type as nothing. -/
def asDouble (args : Json) (key : String) : Option Float :=
  match args.find? key with
  | none => some 0.0
  | some v => v.number?

def checkTakeoff (args : Json) (env : SafetyEnvelope) : SafetyDecision :=
  match asDouble args "altitude_m" with
  | none => deny "wrong_type:altitude_m"
  | some altitude =>
    if altitude ≤ 0.0 then deny "altitude_non_positive"
    else if env.maxAltitudeM < altitude then deny "altitude_exceeds_max"
    else {}

/-- `d` is down from home and is only checked when it is there. -/
def checkDown (args : Json) (env : SafetyEnvelope) : SafetyDecision :=
  match args.find? "d" with
  | none => {}
  | some v =>
    match v.number? with
    | none => deny "wrong_type:d"
    | some d =>
      if 0.0 < d then deny "altitude_below_home"
      else if env.maxAltitudeM < -d then deny "altitude_exceeds_max"
      else {}

def checkGotoNed (args : Json) (env : SafetyEnvelope) : SafetyDecision :=
  let down := checkDown args env
  if !down.allow then down
  else
    match asDouble args "n", asDouble args "e" with
    | none, _ => deny "wrong_type:n"
    | some _, none => deny "wrong_type:e"
    | some n, some e =>
      if env.geofenceRadiusM < (n * n + e * e).sqrt then deny "geofence_breach" else {}

def checkSetVelocityNed (args : Json) (env : SafetyEnvelope) : SafetyDecision :=
  match asDouble args "vx", asDouble args "vy", asDouble args "vz" with
  | none, _, _ => deny "wrong_type:vx"
  | some _, none, _ => deny "wrong_type:vy"
  | some _, some _, none => deny "wrong_type:vz"
  | some vx, some vy, some vz =>
    if env.maxVelocityMps < (vx * vx + vy * vy + vz * vz).sqrt then deny "velocity_exceeds_max"
    else {}

def checkLimits (name : String) (args : Json) (env : SafetyEnvelope) : SafetyDecision :=
  if name == "takeoff" then checkTakeoff args env
  else if name == "goto_ned" then checkGotoNed args env
  else if name == "set_velocity_ned" then checkSetVelocityNed args env
  else {}

def checkTool (name : String) (args : Json) (env : SafetyEnvelope) : Code SafetyDecision := do
  if (← loadAborted) && !isEmergencyFollowup name then return deny "abort_active"
  if ← spokenArmMissing name args env then return deny "spoken_arm_required"
  return checkLimits name args env

end Lexaire.Bridge
