import Lexaire.Core.Dict
import Lexaire.Json
import Mathlib.Data.Finset.Sort

/-! The sensor subscriber (`subscriber.py`): two stream threads that put decoded frames
into bounded buffers, and the matcher that joins them on the sequence number. What the
image decoders make of a payload is not fixed here. -/
namespace Lexaire.Sensor

/-- Exceptions; the matcher catches the first three. -/
inductive PyError where
  | keyError | valueError | typeError | other
deriving DecidableEq

def PyError.caught : PyError → Bool
  | .other => false
  | _ => true

/-- What `int()` and `float()` make of a JSON value. -/
structure Numbers where
  int : Json → Except PyError Int
  float : Json → Except PyError Float

/-- `header[key]`. -/
def item (header : Json) (key : String) : Except PyError Json :=
  match header with
  | .object members =>
    match members.lookup key with
    | some v => .ok v
    | none => .error .keyError
  | _ => .error .typeError

structure Frameset (Rgb Depth : Type) where
  tsNs : Int
  seq : Int
  rgb : Rgb
  depth : Depth
  depthScaleM : Float
  intrinsics : Json

structure SensorSubscriber (Rgb Depth : Type) where
  rgbBuf : Dict Int (Json × Rgb) := {}
  depthBuf : Dict Int (Json × Depth) := {}
  warnedMissingDepthScale : Bool := false

variable {Rgb Depth : Type} (py : Numbers) (bufferSize : Nat)

/-! ## Stream threads -/

/-- A message as one of the stream threads decodes it; on any exception it is skipped. -/
def decodeFrame {Image : Type} (header : Json) (image : Option Image) :
    Option (Int × Json × Image) :=
  match image, item header "seq" >>= py.int with
  | some image, .ok seq => some (seq, header, image)
  | _, _ => none

namespace SensorSubscriber

def runRgb (s : SensorSubscriber Rgb Depth) (header : Json) (image : Option Rgb) :
    SensorSubscriber Rgb Depth :=
  match decodeFrame py header image with
  | some (seq, frame) => { s with rgbBuf := (s.rgbBuf.insert seq frame).trim bufferSize }
  | none => s

def runDepth (s : SensorSubscriber Rgb Depth) (header : Json) (image : Option Depth) :
    SensorSubscriber Rgb Depth :=
  match decodeFrame py header image with
  | some (seq, frame) => { s with depthBuf := (s.depthBuf.insert seq frame).trim bufferSize }
  | none => s

end SensorSubscriber

/-! ## Matching -/

/-- Whether the depth header leaves out its scale. -/
def missingScale (header : Json) : Bool :=
  match header.find? "depth_scale_m" with
  | none | some .null => true
  | _ => false

/-- A missing scale is zero, which stands for no depth. -/
def depthScale (header : Json) : Except PyError Float :=
  match header.find? "depth_scale_m" with
  | none | some .null => .ok (.ofBits 0)
  | some raw => py.float raw

def frameset (seq : Int) (rgb : Json × Rgb) (depth : Json × Depth) :
    Except PyError (Frameset Rgb Depth) := do
  let depthScaleM ← depthScale py depth.1
  let tsNs ← item rgb.1 "ts_ns" >>= py.int
  let intrinsics ← item rgb.1 "intrinsics"
  return { tsNs, seq, rgb := rgb.2, depth := depth.2, depthScaleM, intrinsics }

namespace SensorSubscriber

/-- The loop of `_try_match_locked`. Both frames are popped before the set is made; a
malformed header drops the pair, any other exception leaves the loop. -/
def matchSeqs : List Int → SensorSubscriber Rgb Depth →
    Except PyError (List (Frameset Rgb Depth)) × SensorSubscriber Rgb Depth
  | [], s => (.ok [], s)
  | seq :: rest, s =>
    match s.rgbBuf.find? seq, s.depthBuf.find? seq with
    | some rgb, some depth =>
      let s := {
        rgbBuf := s.rgbBuf.erase seq
        depthBuf := s.depthBuf.erase seq
        warnedMissingDepthScale := s.warnedMissingDepthScale || missingScale depth.1 }
      match frameset py seq rgb depth with
      | .ok fs =>
        let (out, s) := matchSeqs rest s
        (out.map (fs :: ·), s)
      | .error e => if e.caught then matchSeqs rest s else (.error e, s)
    | _, _ => (.error .other, s)

/-- The sequence numbers that both buffers hold, sorted. -/
def common (s : SensorSubscriber Rgb Depth) : List Int :=
  (s.rgbBuf.keys.toFinset ∩ s.depthBuf.keys.toFinset).sort

/-- `_try_match_locked`. -/
def tryMatch (s : SensorSubscriber Rgb Depth) :
    Except PyError (List (Frameset Rgb Depth)) × SensorSubscriber Rgb Depth :=
  s.matchSeqs py s.common

end SensorSubscriber

/-! ## Runs -/

/-- A message on one of the streams, with what its payload decodes to, or a pass of the matcher. -/
inductive Event (Rgb Depth : Type) where
  | rgb (header : Json) (image : Option Rgb)
  | depth (header : Json) (image : Option Depth)
  | pass

/-- The threads and what the matcher has given out. It dies of an exception it does not catch. -/
structure Session (Rgb Depth : Type) where
  subscriber : SensorSubscriber Rgb Depth := {}
  alive : Bool := true
  emitted : List (Frameset Rgb Depth) := []

def Session.step (s : Session Rgb Depth) : Event Rgb Depth → Session Rgb Depth
  | .rgb header image => { s with subscriber := s.subscriber.runRgb py bufferSize header image }
  | .depth header image => { s with subscriber := s.subscriber.runDepth py bufferSize header image }
  | .pass =>
    if s.alive then
      match s.subscriber.tryMatch py with
      | (.ok matched, subscriber) => { s with subscriber, emitted := s.emitted ++ matched }
      | (.error _, subscriber) => { s with subscriber, alive := false }
    else s

def Session.run (events : List (Event Rgb Depth)) : Session Rgb Depth :=
  events.foldl (Session.step py bufferSize) {}

/-- No frame is there before the threads run. -/
def SensorSubscriber.unfed : SensorSubscriber Rgb Depth := {}

end Lexaire.Sensor
