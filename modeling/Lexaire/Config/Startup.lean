import Lexaire.Bridge.Safety
import Lexaire.Config.Purity

/-! What the flight bridge reads from its configuration before it serves. -/
namespace Lexaire.Bridge
open Yaml

/-- `as<T>()` of yaml-cpp, at the types the bridge asks for. -/
structure Conversions where
  double : Found → Except String Float
  bool : Found → Except String Bool
  string : Found → Except String String

def SafetyEnvelope.fromConfig (as : Conversions) (cfg : Config) : SafetyEnvelope × Config :=
  let e : SafetyEnvelope := {}
  let (maxAltitudeM, cfg) := cfg.getOr as.double "safety.max_altitude_m" e.maxAltitudeM
  let (geofenceRadiusM, cfg) := cfg.getOr as.double "safety.geofence_radius_m" e.geofenceRadiusM
  let (maxVelocityMps, cfg) := cfg.getOr as.double "safety.max_velocity_mps" e.maxVelocityMps
  let (requireSpokenArm, cfg) := cfg.getOr as.bool "safety.require_spoken_arm" e.requireSpokenArm
  ({ maxAltitudeM, geofenceRadiusM, maxVelocityMps, requireSpokenArm }, cfg)

structure Startup where
  env : SafetyEnvelope
  repEp : String
  telemetryEp : String
  mavsdkUri : String
  hbThresholdS : Float
  hbAction : String

/-- The reads at the head of `run()`, in their order. -/
def Startup.read (as : Conversions) (cfg : Config) : Except String Startup := do
  let (env, cfg) := SafetyEnvelope.fromConfig as cfg
  let (repEp, cfg) := cfg.require as.string "services.flight_bridge_rep"
  let repEp ← repEp
  let (telemetryEp, cfg) := cfg.require as.string "services.telemetry_pub"
  let telemetryEp ← telemetryEp
  let (mavsdkUri, cfg) := cfg.require as.string "drone.mavsdk_udp"
  let mavsdkUri ← mavsdkUri
  let (hbThresholdS, cfg) := cfg.getOr as.double "safety.heartbeat_loss_threshold_s" 2.0
  let (hbAction, _) := cfg.getOr as.string "safety.heartbeat_loss_action" "rtl"
  return { env, repEp, telemetryEp, mavsdkUri, hbThresholdS, hbAction }

theorem getOr_snd {α : Type} (as : Found → Except String α) (dotted : String) (fallback : α)
    (cfg : Config) : (cfg.getOr as dotted fallback).2 = (cfg.walk dotted).2 :=
  Lookup.run_snd (.getOr as dotted fallback) cfg

theorem getOr_null {α : Type} {as : Found → Except String α} {what : String}
    (fails : as .null = .error what) {dotted : String} {cfg : Config}
    (null : (cfg.walk dotted).1 = .null) (fallback : α) :
    (cfg.getOr as dotted fallback).1 = fallback := by
  simp [Config.getOr, null, fails]

theorem fromConfig_snd (as : Conversions) (cfg : Config) :
    (SafetyEnvelope.fromConfig as cfg).2 = ((((cfg.walk "safety.max_altitude_m").2.walk
      "safety.geofence_radius_m").2.walk "safety.max_velocity_mps").2.walk
      "safety.require_spoken_arm").2 := by
  simp only [SafetyEnvelope.fromConfig, getOr_snd]

/-- In a file of sections that hold scalars, the altitude is the only limit read. -/
theorem fromConfig_sections {as : Conversions} {cfg : Config} (sections : Shallow cfg 2)
    {what : String} (no_double : as.double .null = .error what)
    (no_bool : as.bool .null = .error what) :
    (SafetyEnvelope.fromConfig as cfg).1 =
      { maxAltitudeM := (cfg.getOr as.double "safety.max_altitude_m" 5.0).1 } := by
  have first := sections.sink "safety.max_altitude_m"
  have second := first.walk "safety.geofence_radius_m"
  have third := second.walk "safety.max_velocity_mps"
  simp only [SafetyEnvelope.fromConfig, getOr_snd]
  rw [getOr_null no_double (first.too_long (by decide)),
    getOr_null no_double (second.too_long (by decide)),
    getOr_null no_bool (third.too_long (by decide))]

/-- Four lookups later nothing of the file is left to see. -/
theorem startup_blind {as : Conversions} {cfg : Config} (nested : Shallow cfg 4) {what : String}
    (no_string : as.string .null = .error what) :
    (Startup.read as cfg).toOption = none := by
  have sunk : Shallow (SafetyEnvelope.fromConfig as cfg).2 0 := by
    rw [fromConfig_snd]
    exact (((nested.sink _).sink _).sink _).sink _
  have null := shallow_zero sunk "services.flight_bridge_rep"
  simp [Startup.read, Config.require, null, no_string, bind, Except.bind, Except.toOption]

/-- A file with limits below the defaults. -/
def tightLimits : Document :=
  .map [("drone", .map [("mavsdk_udp", .scalar "udp://drone")]),
    ("safety", .map [("max_altitude_m", .scalar "3.0"), ("geofence_radius_m", .scalar "4.0"),
      ("max_velocity_mps", .scalar "0.5")])]

/-- The conversions on the scalars of that file; nothing else converts. -/
def tightConversions : Conversions where
  double
    | .scalar "3.0" => .ok 3.0
    | .scalar "4.0" => .ok 4.0
    | .scalar "0.5" => .ok 0.5
    | _ => .error "bad conversion"
  bool _ := .error "bad conversion"
  string
    | .scalar text => .ok text
    | _ => .error "bad conversion"

/-- The altitude is the file's; the geofence and the speed are the defaults, and
`drone.mavsdk_udp` is a type error after them. Each of the three reads gives the
file's value when it is made first. A key of a section that the file does not have
is a type error even then, and not missing. -/
theorem limits_fall_back :
    let cfg := Config.load tightLimits "config.yaml"
    let as := tightConversions
    let read := SafetyEnvelope.fromConfig as cfg
    (read.1.maxAltitudeM = 3.0 ∧ read.1.geofenceRadiusM = 10.0 ∧ read.1.maxVelocityMps = 1.5 ∧
      (read.2.require as.string "drone.mavsdk_udp").1.toOption = none) ∧
    (cfg.getOr as.double "safety.geofence_radius_m" 10.0).1 = 4.0 ∧
    (cfg.getOr as.double "safety.max_velocity_mps" 1.5).1 = 0.5 ∧
    (cfg.require as.string "drone.mavsdk_udp").1.toOption = some "udp://drone" ∧
    tightLimits.find ["services", "telemetry_pub"] = .undefined ∧
    (cfg.require as.string "services.telemetry_pub").1 =
      .error "config type error at services.telemetry_pub: bad conversion" := by
  decide +kernel

end Lexaire.Bridge
