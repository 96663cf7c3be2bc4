import Lexaire.Bridge.Messages

/-! The telemetry stream. Once every tenth of a second the bridge reads the vehicle's
state and publishes it; readings that make no sense are left out. -/
namespace Lexaire.Bridge

/-- A double in a message; `dump()` writes null for one that is not finite. -/
def jsonOfDouble (x : Float) : Json :=
  if finite : x.isFinite = true then .double ⟨x, finite⟩ else .null

/-- Telemetry snapshot broadcast by the flight bridge (`messages.hpp`). -/
structure Telemetry where
  tsNs : Int64 := 0
  connected : Bool := false
  qgcConnected : Bool := false
  armed : Bool := false
  flightMode : String := "N/A"
  batteryPct : Option Int32 := none
  batteryV : Option Float32 := none
  lat : Option Float := none
  lon : Option Float := none
  absAltM : Option Float32 := none
  relAltM : Option Float32 := none
  rollDeg : Float32 := .ofBits 0
  pitchDeg : Float32 := .ofBits 0
  yawDeg : Float32 := .ofBits 0
  groundSpeedMps : Float32 := .ofBits 0

/-- The message as it is read back from its text. -/
def Telemetry.toJson (t : Telemetry) : Json := .object [
  ("ts_ns", .integer t.tsNs.toInt),
  ("connected", .boolean t.connected),
  ("qgc_connected", .boolean t.qgcConnected),
  ("armed", .boolean t.armed),
  ("flight_mode", .string t.flightMode),
  ("battery_pct", t.batteryPct.elim .null fun n => .integer n.toInt),
  ("battery_v", t.batteryV.elim .null jsonOfSingle),
  ("lat", t.lat.elim .null jsonOfDouble),
  ("lon", t.lon.elim .null jsonOfDouble),
  ("abs_alt_m", t.absAltM.elim .null jsonOfSingle),
  ("rel_alt_m", t.relAltM.elim .null jsonOfSingle),
  ("roll_deg", jsonOfSingle t.rollDeg),
  ("pitch_deg", jsonOfSingle t.pitchDeg),
  ("yaw_deg", jsonOfSingle t.yawDeg),
  ("ground_speed_mps", jsonOfSingle t.groundSpeedMps)]

/-- What the plugin and the clocks answer in one round of the broadcaster. The mode is
the text that MAVSDK writes for it. -/
structure Readings where
  nowNs : Int64
  nowMs : Int64
  lastGcsHbMs : Int64
  isConnected : Bool
  armed : Bool
  flightMode : String
  remainingPercent : Float32
  voltageV : Float32
  latitudeDeg : Float
  longitudeDeg : Float
  absoluteAltitudeM : Float32
  relativeAltitudeM : Float32
  rollDeg : Float32
  pitchDeg : Float32
  yawDeg : Float32
  northMS : Float32
  eastMS : Float32

/-- `static_cast<int>`; what it yields beyond the range of `int` is left open. -/
def toInt32 (unspecified : Int32) (x : Float) : Int32 :=
  match Double.truncate? x with
  | some i => if -2 ^ 31 ≤ i ∧ i < 2 ^ 31 then Int32.ofInt i else unspecified
  | none => unspecified

/-- A position: two numbers, not both zero. -/
def Readings.hasPosition (r : Readings) : Bool :=
  r.latitudeDeg.isFinite && r.longitudeDeg.isFinite &&
    (r.latitudeDeg != .ofBits 0 || r.longitudeDeg != .ofBits 0)

/-- One round of the broadcaster thread (`tele_thread`). -/
def Readings.telemetry (unspecified : Int32) (r : Readings) : Telemetry where
  tsNs := r.nowNs
  qgcConnected := r.lastGcsHbMs != 0 && decide (r.nowMs - r.lastGcsHbMs < 3000)
  connected := r.isConnected
  armed := r.armed
  flightMode := r.flightMode
  batteryPct :=
    if .ofBits 0 ≤ r.remainingPercent then
      some (toInt32 unspecified (Double.ofSingle r.remainingPercent))
    else none
  batteryV := if r.voltageV.isFinite = true ∧ .ofBits 0 < r.voltageV then some r.voltageV else none
  lat := if r.hasPosition then some r.latitudeDeg else none
  lon := if r.hasPosition then some r.longitudeDeg else none
  absAltM := if r.absoluteAltitudeM.isFinite then some r.absoluteAltitudeM else none
  relAltM := if r.relativeAltitudeM.isFinite then some r.relativeAltitudeM else none
  rollDeg := r.rollDeg
  pitchDeg := r.pitchDeg
  yawDeg := r.yawDeg
  groundSpeedMps := (r.northMS * r.northMS + r.eastMS * r.eastMS).sqrt

/-- What the broadcaster's guards promise of the optional fields. -/
structure Telemetry.Guarded (t : Telemetry) : Prop where
  batteryV : ∀ x, t.batteryV = some x → x.isFinite = true
  lat : ∀ x, t.lat = some x → x.isFinite = true
  lon : ∀ x, t.lon = some x → x.isFinite = true
  position : t.lat.isSome = t.lon.isSome
  absAltM : ∀ x, t.absAltM = some x → x.isFinite = true
  relAltM : ∀ x, t.relAltM = some x → x.isFinite = true

theorem Readings.guarded (unspecified : Int32) (r : Readings) : (r.telemetry unspecified).Guarded := by
  constructor
  · intro x present
    simp only [telemetry, Option.ite_none_right_eq_some, Option.some.injEq] at present
    obtain ⟨⟨finite, -⟩, rfl⟩ := present
    exact finite
  · intro x present
    simp only [telemetry, Option.ite_none_right_eq_some, Option.some.injEq] at present
    obtain ⟨position, rfl⟩ := present
    simp only [hasPosition, Bool.and_eq_true] at position
    exact position.1.1
  · intro x present
    simp only [telemetry, Option.ite_none_right_eq_some, Option.some.injEq] at present
    obtain ⟨position, rfl⟩ := present
    simp only [hasPosition, Bool.and_eq_true] at position
    exact position.1.2
  · simp only [telemetry]
    split
    · rfl
    · rfl
  · intro x present
    simp only [telemetry, Option.ite_none_right_eq_some, Option.some.injEq] at present
    obtain ⟨finite, rfl⟩ := present
    exact finite
  · intro x present
    simp only [telemetry, Option.ite_none_right_eq_some, Option.some.injEq] at present
    obtain ⟨finite, rfl⟩ := present
    exact finite

end Lexaire.Bridge
