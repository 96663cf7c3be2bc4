import Lexaire.Core.Interference

/-! The operations of the flight bridge that another thread or the vehicle can
observe: atomic accesses to the session latches, telemetry reads and the MAVSDK
command methods. What MAVSDK answers is not fixed here. -/
namespace Lexaire.Bridge
open Atomic

/-- `Action::Result`; `other` is every enumerator the bridge does not name. -/
inductive ActionResult where
  | success | noSystem | connectionError | busy | commandDenied | commandDeniedLandedStateUnknown
  | commandDeniedNotLanded | timeout | vtolTransitionSupportUnknown | noVtolTransitionSupport
  | parameterError | unsupported | other
deriving DecidableEq, Repr

/-- `Offboard::Result`. -/
inductive OffboardResult where
  | success | noSystem | connectionError | busy | commandDenied | timeout | noSetpointSet | other
deriving DecidableEq, Repr

/-- `Param::Result`. -/
inductive ParamResult where
  | success | timeout | connectionError | wrongType | paramNameTooLong | noSystem
  | paramValueTooLong | other
deriving DecidableEq, Repr

structure PositionNedYaw where
  north : Float32
  east : Float32
  down : Float32
  yawDeg : Float32
deriving DecidableEq

structure VelocityNedYaw where
  north : Float32
  east : Float32
  down : Float32
  yawDeg : Float32
deriving DecidableEq

/-- `Telemetry::Health`, as the diagnostic tool dumps it. -/
structure Health where
  isArmable : Bool
  isGyrometerCalibrationOk : Bool
  isAccelerometerCalibrationOk : Bool
  isMagnetometerCalibrationOk : Bool
  isLocalPositionOk : Bool
  isGlobalPositionOk : Bool
  isHomePositionOk : Bool
deriving DecidableEq

/-- Methods of the Action plugin. -/
inductive ActionCommand where
  | arm | disarm | takeoff | land | returnToLaunch | hold | kill
  | setTakeoffAltitude (altitude : Float32)
deriving DecidableEq

/-- Methods of the Offboard plugin. -/
inductive OffboardCommand where
  | setPositionNed (setpoint : PositionNedYaw)
  | setVelocityNed (setpoint : VelocityNedYaw)
  | start
deriving DecidableEq

/-- `unspecifiedInt` is a value the C++ standard leaves open. -/
inductive Op where
  | loadAborted
  | loadArmedWithVoice
  | storeAborted (value : Bool)
  | storeArmedWithVoice (value : Bool)
  | inAir
  | attitudeYawDeg
  | health
  | isConnected
  | clockNow
  | unspecifiedInt
  | action (c : ActionCommand)
  | offboard (c : OffboardCommand)
  | setParamInt (name : String) (value : Int)
  | setParamFloat (name : String) (value : Float32)
  | getParamInt (name : String)
  | getParamFloat (name : String)
deriving DecidableEq

@[reducible] def Op.Answer : Op → Type
  | .loadAborted | .loadArmedWithVoice | .inAir | .isConnected => Bool
  | .storeAborted _ | .storeArmedWithVoice _ => Unit
  | .attitudeYawDeg => Float32
  | .health => Health
  | .clockNow => Nat
  | .unspecifiedInt => Int
  | .action _ => ActionResult
  | .offboard _ => OffboardResult
  | .setParamInt _ _ | .setParamFloat _ _ => ParamResult
  | .getParamInt _ => ParamResult × Int
  | .getParamFloat _ => ParamResult × Float32

/-- Calls into the Action, Offboard and Param plugins. -/
def Op.isCommand : Op → Bool
  | .action _ | .offboard _ | .setParamInt _ _ | .setParamFloat _ _ | .getParamInt _
  | .getParamFloat _ => true
  | _ => false

/-- The commands that change, or ask to change, the vehicle. -/
def Op.acts : Op → Bool
  | .getParamInt _ | .getParamFloat _ => false
  | op => op.isCommand

/-- C++ code of the bridge; an exception carries its `what()`. -/
abbrev Code := Program Op Op.Answer String

def loadAborted : Code Bool := Program.perform Op.loadAborted
def loadArmedWithVoice : Code Bool := Program.perform Op.loadArmedWithVoice
def storeAborted (value : Bool) : Code Unit := Program.perform (Op.storeAborted value)
def storeArmedWithVoice (value : Bool) : Code Unit := Program.perform (Op.storeArmedWithVoice value)
def inAir : Code Bool := Program.perform Op.inAir
def attitudeYawDeg : Code Float32 := Program.perform Op.attitudeYawDeg
def health : Code Health := Program.perform Op.health
def isConnected : Code Bool := Program.perform Op.isConnected
def clockNow : Code Nat := Program.perform Op.clockNow
def unspecifiedInt : Code Int := Program.perform Op.unspecifiedInt
def action (c : ActionCommand) : Code ActionResult := Program.perform (Op.action c)
def offboard (c : OffboardCommand) : Code OffboardResult := Program.perform (Op.offboard c)
def setParamInt (name : String) (value : Int) : Code ParamResult :=
  Program.perform (Op.setParamInt name value)
def setParamFloat (name : String) (value : Float32) : Code ParamResult :=
  Program.perform (Op.setParamFloat name value)
def getParamInt (name : String) : Code (ParamResult × Int) :=
  Program.perform (Op.getParamInt name)
def getParamFloat (name : String) : Code (ParamResult × Float32) :=
  Program.perform (Op.getParamFloat name)

section
variable {α : Type}

/-! Each of these is one node of the program tree. -/

@[simp] theorem loadAborted_bind (f : Bool → Code α) : (loadAborted >>= f) = .step .loadAborted f := rfl
@[simp] theorem loadArmedWithVoice_bind (f : Bool → Code α) :
    (loadArmedWithVoice >>= f) = .step .loadArmedWithVoice f := rfl
@[simp] theorem storeAborted_bind (v : Bool) (f : Unit → Code α) :
    (storeAborted v >>= f) = .step (.storeAborted v) f := rfl
@[simp] theorem storeArmedWithVoice_bind (v : Bool) (f : Unit → Code α) :
    (storeArmedWithVoice v >>= f) = .step (.storeArmedWithVoice v) f := rfl
@[simp] theorem inAir_bind (f : Bool → Code α) : (inAir >>= f) = .step .inAir f := rfl
@[simp] theorem attitudeYawDeg_bind (f : Float32 → Code α) :
    (attitudeYawDeg >>= f) = .step .attitudeYawDeg f := rfl
@[simp] theorem health_bind (f : Health → Code α) : (health >>= f) = .step .health f := rfl
@[simp] theorem isConnected_bind (f : Bool → Code α) : (isConnected >>= f) = .step .isConnected f := rfl
@[simp] theorem clockNow_bind (f : Nat → Code α) : (clockNow >>= f) = .step .clockNow f := rfl
@[simp] theorem unspecifiedInt_bind (f : Int → Code α) :
    (unspecifiedInt >>= f) = .step .unspecifiedInt f := rfl
@[simp] theorem action_bind (c : ActionCommand) (f : ActionResult → Code α) :
    (action c >>= f) = .step (.action c) f := rfl
@[simp] theorem offboard_bind (c : OffboardCommand) (f : OffboardResult → Code α) :
    (offboard c >>= f) = .step (.offboard c) f := rfl
@[simp] theorem setParamInt_bind (n : String) (v : Int) (f : ParamResult → Code α) :
    (setParamInt n v >>= f) = .step (.setParamInt n v) f := rfl
@[simp] theorem setParamFloat_bind (n : String) (v : Float32) (f : ParamResult → Code α) :
    (setParamFloat n v >>= f) = .step (.setParamFloat n v) f := rfl
@[simp] theorem getParamInt_bind (n : String) (f : ParamResult × Int → Code α) :
    (getParamInt n >>= f) = .step (.getParamInt n) f := rfl
@[simp] theorem getParamFloat_bind (n : String) (f : ParamResult × Float32 → Code α) :
    (getParamFloat n >>= f) = .step (.getParamFloat n) f := rfl
end

/-- The latches that two threads and a callback share. -/
structure SafetyState where
  aborted : Bool := false
  armedWithVoice : Bool := false
deriving DecidableEq, Repr

/-- What the outside answers while one request is handled. -/
structure Outside where
  inAir : Bool
  attitudeYawDeg : Float32
  health : Health
  isConnected : Bool
  clockNow : Nat
  unspecifiedInt : Int
  action : ActionCommand → ActionResult
  offboard : OffboardCommand → OffboardResult
  setParam : ParamResult
  getParamInt : ParamResult × Int
  getParamFloat : ParamResult × Float32

/-- The vehicle on the ground with its link up, taking every command. -/
def Outside.nominal : Outside where
  inAir := false
  attitudeYawDeg := .ofBits 0
  health := ⟨true, true, true, true, true, true, true⟩
  isConnected := true
  clockNow := 0
  unspecifiedInt := 0
  action _ := .success
  offboard _ := .success
  setParam := .success
  getParamInt := (.success, 0)
  getParamFloat := (.success, .ofBits 0)

/-- A request handled with no other thread in between. -/
@[simp] def Outside.answer (o : Outside) : (op : Op) → SafetyState → op.Answer × SafetyState
  | .loadAborted, s => (s.aborted, s)
  | .loadArmedWithVoice, s => (s.armedWithVoice, s)
  | .storeAborted v, s => ((), { s with aborted := v })
  | .storeArmedWithVoice v, s => ((), { s with armedWithVoice := v })
  | .inAir, s => (o.inAir, s)
  | .attitudeYawDeg, s => (o.attitudeYawDeg, s)
  | .health, s => (o.health, s)
  | .isConnected, s => (o.isConnected, s)
  | .clockNow, s => (o.clockNow, s)
  | .unspecifiedInt, s => (o.unspecifiedInt, s)
  | .action c, s => (o.action c, s)
  | .offboard c, s => (o.offboard c, s)
  | .setParamInt _ _, s => (o.setParam, s)
  | .setParamFloat _ _, s => (o.setParam, s)
  | .getParamInt _, s => (o.getParamInt, s)
  | .getParamFloat _, s => (o.getParamFloat, s)

end Lexaire.Bridge
