import Lexaire.Core.Exact
import Lexaire.Bridge.Telemetry

/-! The telemetry panel of the TUI and what it shows of the bridge's telemetry. -/
namespace Lexaire.Tui
open Bridge

/-- Flat view of the bridge's telemetry payload (`monitor.hpp`). -/
structure TelemetrySnapshot where
  connected : Bool := false
  qgcConnected : Bool := false
  armed : Bool := false
  flightMode : String := "N/A"
  hasBattery : Bool := false
  batteryPct : Int32 := 0
  batteryV : Float32 := .ofBits 0
  hasFix : Bool := false
  latitude : Float := .ofBits 0
  longitude : Float := .ofBits 0
  absAltM : Float32 := .ofBits 0
  relAltM : Float32 := .ofBits 0
  rollDeg : Float32 := .ofBits 0
  pitchDeg : Float32 := .ofBits 0
  yawDeg : Float32 := .ofBits 0
  groundSpd : Float32 := .ofBits 0

/-- `j.contains(key) && !j[key].is_null()`. -/
def present? (j : Json) (key : String) : Option Json :=
  match j.find? key with
  | some .null => none
  | found => found

/-- `get<float>()`, which takes a boolean for a number. -/
def single? : Json → Option Float32
  | .integer n => some (.ofModel (.ofInt n))
  | .double x => some (Double.toSingle x.value)
  | .boolean b => some (.ofModel (.ofInt b.toInt))
  | _ => none

/-- `get<T>()` throws on a value of another type. -/
def get {α : Type} (read : Json → Option α) (j : Json) : Except String α :=
  match read j with
  | some x => .ok x
  | none => .error s!"[json.exception.type_error.302] type must be number, but is {j.typeName}"

def valueFloat (j : Json) (key : String) (default : Float32) : Except String Float32 :=
  j.value single? "number" key default

/-- A fix takes both a latitude and a longitude. -/
def readPosition (j : Json) (out : TelemetrySnapshot) : Except String TelemetrySnapshot :=
  match present? j "lat", present? j "lon" with
  | some lat, some lon => do
    let latitude ← get Json.number? lat
    let longitude ← get Json.number? lon
    return { out with hasFix := true, latitude, longitude }
  | _, _ => .ok out

/-- The body of `parse_telemetry`, before its catch-all. -/
def readTelemetry (unspecified : Int32) (j : Json) : Except String TelemetrySnapshot := do
  let connected ← j.valueBool "connected" false
  let qgcConnected ← j.valueBool "qgc_connected" false
  let armed ← j.valueBool "armed" false
  let flightMode ← j.valueString "flight_mode" "N/A"
  let pct := present? j "battery_pct"
  let v := present? j "battery_v"
  let batteryPct ← pct.elim (pure 0) (get fun pct => pct.number?.map (toInt32 unspecified))
  let batteryV ← v.elim (pure (.ofBits 0)) (get single?)
  let out : TelemetrySnapshot :=
    { connected, qgcConnected, armed, flightMode, hasBattery := pct.isSome || v.isSome,
      batteryPct, batteryV }
  let out ← readPosition j out
  let absAltM ← (present? j "abs_alt_m").elim (pure (.ofBits 0)) (get single?)
  let relAltM ← (present? j "rel_alt_m").elim (pure (.ofBits 0)) (get single?)
  let rollDeg ← valueFloat j "roll_deg" (.ofBits 0)
  let pitchDeg ← valueFloat j "pitch_deg" (.ofBits 0)
  let yawDeg ← valueFloat j "yaw_deg" (.ofBits 0)
  let groundSpd ← valueFloat j "ground_speed_mps" (.ofBits 0)
  return { out with absAltM, relAltM, rollDeg, pitchDeg, yawDeg, groundSpd }

/-- A header that is no JSON is discarded; anything that throws wipes the snapshot. -/
def parseTelemetry (unspecified : Int32) : Option Json → TelemetrySnapshot
  | some (.object members) => (readTelemetry unspecified (.object members)).toOption.getD {}
  | _ => {}

/-! ## Reading what was written -/

section
variable {x : Float32} {y : Float}

theorem jsonOfSingle_of_finite (finite : x.isFinite = true) :
    ∃ d : FiniteDouble, jsonOfSingle x = .double d ∧ d.value = Double.ofSingle x := by
  have wide : (Double.ofSingle x).isFinite = true := by rw [Double.isFinite_ofSingle, finite]
  exact ⟨⟨_, wide⟩, dif_pos wide, rfl⟩

theorem jsonOfSingle_of_not_finite (lost : x.isFinite = false) : jsonOfSingle x = .null := by
  have wide : (Double.ofSingle x).isFinite = false := by rw [Double.isFinite_ofSingle, lost]
  exact dif_neg (by simp [wide])

theorem single?_jsonOfSingle (finite : x.isFinite = true) : single? (jsonOfSingle x) = some x := by
  obtain ⟨d, written, value⟩ := jsonOfSingle_of_finite finite
  rw [written, single?, value, Double.toSingle_ofSingle finite]

theorem number?_jsonOfDouble (finite : y.isFinite = true) :
    (jsonOfDouble y).number? = some y := by
  rw [jsonOfDouble, dif_pos finite]
  rfl

theorem toInt32_ofInt (unspecified n : Int32) : toInt32 unspecified (Double.ofInt n.toInt) = n := by
  have low := n.le_toInt
  have high := n.toInt_lt
  have small : n.toInt.natAbs < 2 ^ 53 := by omega
  rw [toInt32, Double.truncate?_ofInt small]
  simp only [low, high, and_self, if_true, Int32.ofInt_toInt]

variable {j : Json} {key : String}

/-- An optional field is read as it was sent, and a field left out as its default. -/
theorem optional_read {α : Type} {read : Json → Option α} {write : α → Json} {default : α}
    {sent : Option α} (written : j.find? key = some (sent.elim .null write))
    (back : ∀ x, sent = some x → read (write x) = some x) (no_null : read .null = none) :
    (present? j key).elim (pure default) (get read) = Except.ok (sent.getD default) ∧
      (present? j key).isSome = sent.isSome := by
  cases sent with
  | none =>
    have absent : present? j key = none := by simp only [present?, written, Option.elim]
    rw [absent]
    exact ⟨rfl, rfl⟩
  | some x =>
    have known := back x rfl
    have there : present? j key = some (write x) := by
      simp only [present?, written, Option.elim_some]
      split
      · next null =>
        rw [Option.some.inj null, no_null] at known
        cases known
      · rfl
    rw [there]
    refine ⟨?_, rfl⟩
    simp only [Option.elim_some, get, known, Option.getD_some]

theorem valueFloat_jsonOfSingle {default : Float32} (written : j.find? key = some (jsonOfSingle x))
    (finite : x.isFinite = true) : valueFloat j key default = .ok x := by
  cases j with
  | object members =>
    change members.lookup key = _ at written
    simp only [valueFloat, Json.value, written, single?_jsonOfSingle finite]
  | _ => cases written

/-- `value()` throws at a null. -/
theorem valueFloat_null {default : Float32} (written : j.find? key = some .null) :
    ∃ e, valueFloat j key default = .error e := by
  cases j with
  | object members =>
    change members.lookup key = _ at written
    simp only [valueFloat, Json.value, written, single?]
    exact ⟨_, rfl⟩
  | _ => cases written

end

/-- What the panel should show of a telemetry. -/
def shown (t : Telemetry) : TelemetrySnapshot where
  connected := t.connected
  qgcConnected := t.qgcConnected
  armed := t.armed
  flightMode := t.flightMode
  hasBattery := t.batteryPct.isSome || t.batteryV.isSome
  batteryPct := t.batteryPct.getD 0
  batteryV := t.batteryV.getD (.ofBits 0)
  hasFix := t.lat.isSome && t.lon.isSome
  latitude := t.lat.getD (.ofBits 0)
  longitude := t.lon.getD (.ofBits 0)
  absAltM := t.absAltM.getD (.ofBits 0)
  relAltM := t.relAltM.getD (.ofBits 0)
  rollDeg := t.rollDeg
  pitchDeg := t.pitchDeg
  yawDeg := t.yawDeg
  groundSpd := t.groundSpeedMps

/-- The four floats that are sent without a guard are numbers. -/
def Sampled (t : Telemetry) : Prop :=
  t.rollDeg.isFinite = true ∧ t.pitchDeg.isFinite = true ∧ t.yawDeg.isFinite = true ∧
    t.groundSpeedMps.isFinite = true

variable {t : Telemetry} (unspecified : Int32)

theorem single?_optional {sent : Option Float32} (guarded : ∀ x, sent = some x → x.isFinite = true) :
    ∀ x, sent = some x → single? (jsonOfSingle x) = some x := by
  intro x there
  exact single?_jsonOfSingle (guarded x there)

theorem batteryPct_read :
    (present? t.toJson "battery_pct").elim (pure 0)
        (get fun pct => pct.number?.map (toInt32 unspecified)) = Except.ok (t.batteryPct.getD 0) ∧
      (present? t.toJson "battery_pct").isSome = t.batteryPct.isSome := by
  apply optional_read rfl
  · intro n _
    simp only [Json.number?, Option.map_some, toInt32_ofInt]
  · rfl

theorem batteryV_read (guarded : t.Guarded) :
    (present? t.toJson "battery_v").elim (pure (.ofBits 0)) (get single?) =
        Except.ok (t.batteryV.getD (.ofBits 0)) ∧
      (present? t.toJson "battery_v").isSome = t.batteryV.isSome :=
  optional_read rfl (single?_optional guarded.batteryV) rfl

theorem absAltM_read (guarded : t.Guarded) :
    (present? t.toJson "abs_alt_m").elim (pure (.ofBits 0)) (get single?) =
      Except.ok (t.absAltM.getD (.ofBits 0)) :=
  (optional_read rfl (single?_optional guarded.absAltM) rfl).1

theorem relAltM_read (guarded : t.Guarded) :
    (present? t.toJson "rel_alt_m").elim (pure (.ofBits 0)) (get single?) =
      Except.ok (t.relAltM.getD (.ofBits 0)) :=
  (optional_read rfl (single?_optional guarded.relAltM) rfl).1

theorem present?_jsonOfDouble {j : Json} {key : String} {y : Float} (finite : y.isFinite = true)
    (written : j.find? key = some (jsonOfDouble y)) :
    present? j key = some (jsonOfDouble y) ∧ get Json.number? (jsonOfDouble y) = .ok y := by
  constructor
  · rw [present?, written, jsonOfDouble, dif_pos finite]
  · rw [get, number?_jsonOfDouble finite]

/-- Either both parts of the position are sent or none. -/
theorem readPosition_toJson (guarded : t.Guarded) (out : TelemetrySnapshot) :
    (t.lat = none ∧ t.lon = none ∧ readPosition t.toJson out = .ok out) ∨
    ∃ latitude longitude, t.lat = some latitude ∧ t.lon = some longitude ∧
      readPosition t.toJson out = .ok { out with hasFix := true, latitude, longitude } := by
  have position := guarded.position
  have written : t.toJson.find? "lat" = some (t.lat.elim .null jsonOfDouble) := rfl
  have written' : t.toJson.find? "lon" = some (t.lon.elim .null jsonOfDouble) := rfl
  cases lat : t.lat with
  | none =>
    rw [lat] at position written
    have lon : t.lon = none := Option.not_isSome_iff_eq_none.mp (by simp [← position])
    have absent : present? t.toJson "lat" = none := by
      rw [present?, written]
      rfl
    left
    refine ⟨rfl, lon, ?_⟩
    rw [readPosition, absent]
  | some latitude =>
    rw [lat] at position written
    obtain ⟨longitude, lon⟩ := Option.isSome_iff_exists.mp position.symm
    rw [lon] at written'
    have ⟨there, read⟩ := present?_jsonOfDouble (guarded.lat latitude lat) written
    have ⟨there', read'⟩ := present?_jsonOfDouble (guarded.lon longitude lon) written'
    right
    refine ⟨latitude, longitude, rfl, lon, ?_⟩
    rw [readPosition, there, there']
    simp only [read, read', bind, Except.bind, pure, Except.pure]

theorem readTelemetry_toJson (guarded : t.Guarded) (sampled : Sampled t) :
    readTelemetry unspecified t.toJson = .ok (shown t) := by
  have ⟨roll, pitch, yaw, speed⟩ := sampled
  have ⟨pct, has_pct⟩ := batteryPct_read (t := t) unspecified
  have ⟨v, has_v⟩ := batteryV_read guarded
  have connected : t.toJson.valueBool "connected" false = .ok t.connected := rfl
  have qgc : t.toJson.valueBool "qgc_connected" false = .ok t.qgcConnected := rfl
  have armed : t.toJson.valueBool "armed" false = .ok t.armed := rfl
  have mode : t.toJson.valueString "flight_mode" "N/A" = .ok t.flightMode := rfl
  have floats (key : String) (x : Float32) (found : t.toJson.find? key = some (jsonOfSingle x))
      (finite : x.isFinite = true) : valueFloat t.toJson key (.ofBits 0) = .ok x :=
    valueFloat_jsonOfSingle found finite
  simp only [readTelemetry, connected, qgc, armed, mode, pct, has_pct, v, has_v, absAltM_read guarded,
    relAltM_read guarded, floats "roll_deg" _ rfl roll, floats "pitch_deg" _ rfl pitch,
    floats "yaw_deg" _ rfl yaw, floats "ground_speed_mps" _ rfl speed, bind, Except.bind]
  rcases readPosition_toJson guarded _ with ⟨lat, lon, read⟩ | ⟨_, _, lat, lon, read⟩
  · rw [read]
    simp [shown, lat, lon, pure, Except.pure]
  · rw [read]
    simp [shown, lat, lon, pure, Except.pure]

/-- A snapshot is read only where the four floats are. -/
theorem readTelemetry_floats {j : Json} {s : TelemetrySnapshot}
    (read : readTelemetry unspecified j = .ok s) :
    valueFloat j "roll_deg" (.ofBits 0) = .ok s.rollDeg ∧
      valueFloat j "pitch_deg" (.ofBits 0) = .ok s.pitchDeg ∧
      valueFloat j "yaw_deg" (.ofBits 0) = .ok s.yawDeg ∧
      valueFloat j "ground_speed_mps" (.ofBits 0) = .ok s.groundSpd := by
  simp only [readTelemetry, bind_eq_ok_iff] at read
  obtain ⟨_, -, _, -, _, -, _, -, _, -, _, -, _, -, _, -, _, -, _, roll, _, pitch, _, yaw, _, speed,
    same⟩ := read
  obtain rfl := Except.ok.inj same
  exact ⟨roll, pitch, yaw, speed⟩

theorem finite_of_read {j : Json} {key : String} {x y default : Float32}
    (written : j.find? key = some (jsonOfSingle x)) (read : valueFloat j key default = .ok y) :
    x.isFinite = true := by
  by_contra lost
  rw [jsonOfSingle_of_not_finite (Bool.eq_false_of_not_eq_true lost)] at written
  obtain ⟨e, thrown⟩ := @valueFloat_null _ _ default written
  rw [thrown] at read
  cases read

/-- The panel shows what was sent. -/
structure Faithful (t : Telemetry) (s : TelemetrySnapshot) : Prop where
  connected : s.connected = t.connected
  qgcConnected : s.qgcConnected = t.qgcConnected
  armed : s.armed = t.armed
  flightMode : s.flightMode = t.flightMode
  hasBattery : s.hasBattery = true ↔ t.batteryPct.isSome ∨ t.batteryV.isSome
  batteryPct : ∀ n, t.batteryPct = some n → s.batteryPct = n
  batteryV : ∀ x, t.batteryV = some x → s.batteryV = x
  hasFix : s.hasFix = true ↔ t.lat.isSome ∧ t.lon.isSome
  latitude : ∀ y, t.lat = some y → s.latitude = y
  longitude : ∀ y, t.lon = some y → s.longitude = y
  absAltM : ∀ x, t.absAltM = some x → s.absAltM = x
  relAltM : ∀ x, t.relAltM = some x → s.relAltM = x
  rollDeg : s.rollDeg = t.rollDeg
  pitchDeg : s.pitchDeg = t.pitchDeg
  yawDeg : s.yawDeg = t.yawDeg
  groundSpd : s.groundSpd = t.groundSpeedMps

theorem faithful_shown (t : Telemetry) : Faithful t (shown t) := by
  constructor <;> simp +contextual [shown]

/-- Whatever the vehicle reports, the panel shows what the bridge has sent if and only
if roll, pitch, yaw and ground speed are numbers. -/
theorem parse_undoes_dump_iff (unspecified unspecified' : Int32) (r : Readings) :
    Faithful (r.telemetry unspecified)
        (parseTelemetry unspecified' (some (r.telemetry unspecified).toJson)) ↔
      Sampled (r.telemetry unspecified) := by
  have guarded := r.guarded unspecified
  generalize r.telemetry unspecified = t at guarded
  have parsed : parseTelemetry unspecified' (some t.toJson) =
      (readTelemetry unspecified' t.toJson).toOption.getD {} := rfl
  rw [parsed]
  constructor
  · intro faithful
    cases read : readTelemetry unspecified' t.toJson with
    | ok s =>
      obtain ⟨roll, pitch, yaw, speed⟩ := readTelemetry_floats unspecified' read
      exact ⟨finite_of_read rfl roll, finite_of_read rfl pitch, finite_of_read rfl yaw,
        finite_of_read rfl speed⟩
    | error e =>
      rw [read] at faithful
      have zero : (Float32.ofBits 0).isFinite = true := rfl
      refine ⟨?_, ?_, ?_, ?_⟩
      · exact faithful.rollDeg ▸ zero
      · exact faithful.pitchDeg ▸ zero
      · exact faithful.yawDeg ▸ zero
      · exact faithful.groundSpd ▸ zero
  · intro sampled
    rw [readTelemetry_toJson unspecified' guarded sampled]
    exact faithful_shown t

/-- An armed vehicle before its first attitude sample. -/
def unsampled : Readings where
  nowNs := 5000000000
  nowMs := 5000
  lastGcsHbMs := 4000
  isConnected := true
  armed := true
  flightMode := "Hold"
  remainingPercent := .ofBits 0x42C80000
  voltageV := .ofBits 0x41400000
  latitudeDeg := .ofBits 0x4047B00000000000
  longitudeDeg := .ofBits 0x4021000000000000
  absoluteAltitudeM := .ofBits 0x41200000
  relativeAltitudeM := .ofBits 0
  rollDeg := .ofBits 0x7FC00000
  pitchDeg := .ofBits 0x7FC00000
  yawDeg := .ofBits 0x7FC00000
  northMS := .ofBits 0
  eastMS := .ofBits 0

/-- Its telemetry is shown as that of a disconnected, disarmed vehicle. -/
theorem unsampled_wiped : ¬ ∀ (unspecified unspecified' : Int32) (r : Readings),
    Faithful (r.telemetry unspecified)
      (parseTelemetry unspecified' (some (r.telemetry unspecified).toJson)) := by
  intro claimed
  have armed := (claimed 0 0 unsampled).armed
  have disarmed : (parseTelemetry 0 (some (unsampled.telemetry 0).toJson)).armed = false := by
    decide +kernel
  rw [disarmed] at armed
  cases armed

end Lexaire.Tui
