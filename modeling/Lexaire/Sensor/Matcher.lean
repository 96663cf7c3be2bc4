import Lexaire.Core.Pairing
import Lexaire.Sensor.Subscriber

/-! What the matcher gives out. On sequence numbers a session is a pairing of two
increasing streams; the frames themselves are those received under these numbers. -/
namespace Lexaire.Sensor
open Pairing (lefts rights)

variable {Rgb Depth : Type} {py : Numbers} {bufferSize : Nat}

def rgbFrame? (py : Numbers) : Event Rgb Depth → Option (Int × Json × Rgb)
  | .rgb header image => decodeFrame py header image
  | _ => none

def depthFrame? (py : Numbers) : Event Rgb Depth → Option (Int × Json × Depth)
  | .depth header image => decodeFrame py header image
  | _ => none

/-- The frames received on a stream. -/
def rgbFrames (py : Numbers) (events : List (Event Rgb Depth)) : List (Int × Json × Rgb) :=
  events.filterMap (rgbFrame? py)

def depthFrames (py : Numbers) (events : List (Event Rgb Depth)) : List (Int × Json × Depth) :=
  events.filterMap (depthFrame? py)

/-- The matcher can read what it needs of a frame's header. -/
def Event.WellFormed (py : Numbers) (e : Event Rgb Depth) : Prop :=
  (∀ seq header image, rgbFrame? py e = some (seq, header, image) →
    (∃ ts, (item header "ts_ns" >>= py.int) = .ok ts) ∧
      ∃ intrinsics, item header "intrinsics" = .ok intrinsics) ∧
  ∀ seq header image, depthFrame? py e = some (seq, header, image) →
    ∃ scale, depthScale py header = .ok scale

theorem frameset_ok {seq : Int} {rgb : Json × Rgb} {depth : Json × Depth}
    (scaled : ∃ scale, depthScale py depth.1 = .ok scale)
    (stamped : ∃ ts, (item rgb.1 "ts_ns" >>= py.int) = .ok ts)
    (intrinsic : ∃ intrinsics, item rgb.1 "intrinsics" = .ok intrinsics) :
    ∃ fs, frameset py seq rgb depth = .ok fs := by
  obtain ⟨scale, scaled⟩ := scaled
  obtain ⟨ts, stamped⟩ := stamped
  obtain ⟨intrinsics, intrinsic⟩ := intrinsic
  refine ⟨⟨ts, seq, rgb.2, depth.2, scale, intrinsics⟩, ?_⟩
  simp only [frameset, scaled, stamped, intrinsic, bind_eq_ok_iff]
  exact ⟨scale, rfl, ts, rfl, intrinsics, rfl, rfl⟩

/-- What a frameset is made of. -/
theorem frameset_parts {seq : Int} {rgb : Json × Rgb} {depth : Json × Depth}
    {fs : Frameset Rgb Depth} (made : frameset py seq rgb depth = .ok fs) :
    fs.seq = seq ∧ fs.rgb = rgb.2 ∧ fs.depth = depth.2 := by
  simp only [frameset, bind_eq_ok_iff] at made
  obtain ⟨_, -, _, -, _, -, same⟩ := made
  obtain rfl := Except.ok.inj same
  exact ⟨rfl, rfl, rfl⟩

/-! ## One pass -/

/-- Every frame that a buffer holds has a header the matcher can read. -/
structure Readable (py : Numbers) (s : SensorSubscriber Rgb Depth) : Prop where
  rgb : ∀ e ∈ s.rgbBuf.entries, (∃ ts, (item e.2.1 "ts_ns" >>= py.int) = .ok ts) ∧
    ∃ intrinsics, item e.2.1 "intrinsics" = .ok intrinsics
  depth : ∀ e ∈ s.depthBuf.entries, ∃ scale, depthScale py e.2.1 = .ok scale

/-- What a pass over `seqs` leaves and gives out. -/
structure Matched (py : Numbers) (s : SensorSubscriber Rgb Depth) (seqs : List Int)
    (out : List (Frameset Rgb Depth)) (s' : SensorSubscriber Rgb Depth) : Prop where
  given : out.map (·.seq) = seqs
  rgbKeys : s'.rgbBuf.keys = s.rgbBuf.keys.filter (· ∉ seqs)
  depthKeys : s'.depthBuf.keys = s.depthBuf.keys.filter (· ∉ seqs)
  rgbKept : ∀ e ∈ s'.rgbBuf.entries, e ∈ s.rgbBuf.entries
  depthKept : ∀ e ∈ s'.depthBuf.entries, e ∈ s.depthBuf.entries
  made : ∀ fs ∈ out, ∃ rgb depth, (fs.seq, rgb) ∈ s.rgbBuf.entries ∧
    (fs.seq, depth) ∈ s.depthBuf.entries ∧ frameset py fs.seq rgb depth = .ok fs

theorem matchSeqs_matched {seqs : List Int} {s : SensorSubscriber Rgb Depth}
    (readable : Readable py s) (distinct : seqs.Nodup)
    (held : ∀ seq ∈ seqs, seq ∈ s.rgbBuf.keys ∧ seq ∈ s.depthBuf.keys) :
    ∃ out s', s.matchSeqs py seqs = (.ok out, s') ∧ Matched py s seqs out s' := by
  induction seqs generalizing s with
  | nil =>
    refine ⟨[], s, rfl, ?_⟩
    constructor <;> simp
  | cons seq rest ih =>
    obtain ⟨held_rgb, held_depth⟩ := held seq List.mem_cons_self
    obtain ⟨rgb, found⟩ := s.rgbBuf.find?_of_mem_keys held_rgb
    obtain ⟨depth, found'⟩ := s.depthBuf.find?_of_mem_keys held_depth
    have in_rgb := Dict.mem_of_find? found
    have in_depth := Dict.mem_of_find? found'
    obtain ⟨stamped, intrinsic⟩ := readable.rgb _ in_rgb
    obtain ⟨fs, made⟩ : ∃ fs, frameset py seq rgb depth = .ok fs :=
      frameset_ok (readable.depth _ in_depth) stamped intrinsic
    obtain ⟨other, distinct⟩ := List.nodup_cons.mp distinct
    let popped : SensorSubscriber Rgb Depth := {
      rgbBuf := s.rgbBuf.erase seq
      depthBuf := s.depthBuf.erase seq
      warnedMissingDepthScale := s.warnedMissingDepthScale || missingScale depth.1 }
    have still : ∀ k ∈ rest, k ∈ popped.rgbBuf.keys ∧ k ∈ popped.depthBuf.keys := by
      intro k member
      have apart : k ≠ seq := fun same => other (same ▸ member)
      obtain ⟨left, right⟩ := held k (List.mem_cons_of_mem seq member)
      rw [Dict.keys_erase, Dict.keys_erase]
      simp [left, right, apart]
    have readable' : Readable py popped := by
      constructor
      · exact fun e kept => readable.rgb e (Dict.mem_of_mem_erase kept)
      · exact fun e kept => readable.depth e (Dict.mem_of_mem_erase kept)
    obtain ⟨out, s', ran, matched⟩ := ih readable' distinct still
    have both (keys : List Int) : (keys.filter (· ≠ seq)).filter (· ∉ rest) =
        keys.filter (· ∉ seq :: rest) := by
      rw [List.filter_filter]
      apply List.filter_congr
      intro k _
      by_cases same : k = seq <;> by_cases later : k ∈ rest <;> simp [same, later]
    refine ⟨fs :: out, s', ?_, ?_⟩
    · have ran : popped.matchSeqs py rest = (.ok out, s') := ran
      simp only [SensorSubscriber.matchSeqs, found, found', made]
      rw [ran]
      rfl
    · constructor
      case given => simp only [List.map_cons, matched.given, (frameset_parts made).1]
      case rgbKeys => rw [matched.rgbKeys, Dict.keys_erase, both]
      case depthKeys => rw [matched.depthKeys, Dict.keys_erase, both]
      case rgbKept => exact fun e kept => Dict.mem_of_mem_erase (matched.rgbKept e kept)
      case depthKept => exact fun e kept => Dict.mem_of_mem_erase (matched.depthKept e kept)
      case made =>
        intro given member
        rcases List.mem_cons.mp member with rfl | later
        · rw [(frameset_parts made).1]
          exact ⟨rgb, depth, in_rgb, in_depth, made⟩
        · obtain ⟨rgb, depth, left, right, made⟩ := matched.made given later
          exact ⟨rgb, depth, Dict.mem_of_mem_erase left, Dict.mem_of_mem_erase right, made⟩

/-- Under well-formed headers a pass gives out every common number. -/
theorem tryMatch_matched {s : SensorSubscriber Rgb Depth} (readable : Readable py s) :
    ∃ out s', s.tryMatch py = (.ok out, s') ∧ Matched py s s.common out s' := by
  apply matchSeqs_matched readable (Finset.sort_nodup _ _)
  intro seq member
  simpa [SensorSubscriber.common] using member

/-! ## Sessions as pairings -/

/-- An event as it is seen on sequence numbers; a message that is skipped is none. -/
def Event.key? (py : Numbers) : Event Rgb Depth → Option (Pairing.Event Int)
  | .rgb header image => (decodeFrame py header image).map fun frame => .left frame.1
  | .depth header image => (decodeFrame py header image).map fun frame => .right frame.1
  | .pass => some .pass

def keyEvents (py : Numbers) (events : List (Event Rgb Depth)) : List (Pairing.Event Int) :=
  events.filterMap (Event.key? py)

theorem lefts_keyEvents (events : List (Event Rgb Depth)) :
    lefts (keyEvents py events) = (rgbFrames py events).map Prod.fst := by
  simp only [lefts, keyEvents, rgbFrames, List.filterMap_filterMap, List.map_filterMap]
  congr
  funext e
  cases e with
  | rgb header image =>
    cases decoded : decodeFrame py header image <;>
      simp [Event.key?, rgbFrame?, decoded, Pairing.Event.left?]
  | depth header image =>
    cases decoded : decodeFrame py header image <;>
      simp [Event.key?, rgbFrame?, decoded, Pairing.Event.left?]
  | pass => rfl

theorem rights_keyEvents (events : List (Event Rgb Depth)) :
    rights (keyEvents py events) = (depthFrames py events).map Prod.fst := by
  simp only [rights, keyEvents, depthFrames, List.filterMap_filterMap, List.map_filterMap]
  congr
  funext e
  cases e with
  | rgb header image =>
    cases decoded : decodeFrame py header image <;>
      simp [Event.key?, depthFrame?, decoded, Pairing.Event.right?]
  | depth header image =>
    cases decoded : decodeFrame py header image <;>
      simp [Event.key?, depthFrame?, decoded, Pairing.Event.right?]
  | pass => rfl

def Session.keys (s : Session Rgb Depth) : Pairing.State Int where
  left := s.subscriber.rgbBuf.keys
  right := s.subscriber.depthBuf.keys
  out := s.emitted.map (·.seq)

/-- A session has paired the sequence numbers, out of frames that were received. -/
structure Refines (py : Numbers) (bufferSize : Nat) (events : List (Event Rgb Depth))
    (s : Session Rgb Depth) : Prop where
  alive : s.alive = true
  keys : s.keys = Pairing.run bufferSize (keyEvents py events)
  rgb : ∀ e ∈ s.subscriber.rgbBuf.entries, e ∈ rgbFrames py events
  depth : ∀ e ∈ s.subscriber.depthBuf.entries, e ∈ depthFrames py events
  made : ∀ fs ∈ s.emitted, ∃ rgb depth, (fs.seq, rgb) ∈ rgbFrames py events ∧
    (fs.seq, depth) ∈ depthFrames py events ∧ frameset py fs.seq rgb depth = .ok fs

theorem Refines.readable {events : List (Event Rgb Depth)} {s : Session Rgb Depth}
    (refines : Refines py bufferSize events s) (wellFormed : ∀ e ∈ events, e.WellFormed py) :
    Readable py s.subscriber := by
  constructor
  · rintro ⟨seq, header, image⟩ held
    obtain ⟨e, member, received⟩ := List.mem_filterMap.mp (refines.rgb _ held)
    exact (wellFormed e member).1 seq header image received
  · rintro ⟨seq, header, image⟩ held
    obtain ⟨e, member, received⟩ := List.mem_filterMap.mp (refines.depth _ held)
    exact (wellFormed e member).2 seq header image received

theorem rgbFrames_append (events events' : List (Event Rgb Depth)) :
    rgbFrames py (events ++ events') = rgbFrames py events ++ rgbFrames py events' :=
  List.filterMap_append

theorem depthFrames_append (events events' : List (Event Rgb Depth)) :
    depthFrames py (events ++ events') = depthFrames py events ++ depthFrames py events' :=
  List.filterMap_append

theorem keyEvents_append (events events' : List (Event Rgb Depth)) :
    keyEvents py (events ++ events') = keyEvents py events ++ keyEvents py events' :=
  List.filterMap_append

theorem Refines.grows {events : List (Event Rgb Depth)} {s : Session Rgb Depth}
    (refines : Refines py bufferSize events s) (e : Event Rgb Depth) :
    (∀ f ∈ s.subscriber.rgbBuf.entries, f ∈ rgbFrames py (events ++ [e])) ∧
    (∀ f ∈ s.subscriber.depthBuf.entries, f ∈ depthFrames py (events ++ [e])) ∧
    ∀ fs ∈ s.emitted, ∃ rgb depth, (fs.seq, rgb) ∈ rgbFrames py (events ++ [e]) ∧
      (fs.seq, depth) ∈ depthFrames py (events ++ [e]) ∧ frameset py fs.seq rgb depth = .ok fs := by
  rw [rgbFrames_append, depthFrames_append]
  refine ⟨?_, ?_, ?_⟩
  · intro f held
    exact List.mem_append_left _ (refines.rgb f held)
  · intro f held
    exact List.mem_append_left _ (refines.depth f held)
  · intro fs given
    obtain ⟨rgb, depth, left, right, made⟩ := refines.made fs given
    exact ⟨rgb, depth, List.mem_append_left _ left, List.mem_append_left _ right, made⟩

theorem Session.run_append (events : List (Event Rgb Depth)) (e : Event Rgb Depth) :
    run py bufferSize (events ++ [e]) = (run py bufferSize events).step py bufferSize e := by
  simp [run]

/-- The buffer of a stream takes a frame as it takes its number. -/
theorem keys_insert_trim {Image : Type} (d : Dict Int (Json × Image)) (seq : Int)
    (frame : Json × Image) :
    ((d.insert seq frame).trim bufferSize).keys = Pairing.buffer bufferSize d.keys seq := by
  rw [Dict.keys_trim, Dict.keys_insert, Pairing.buffer]

theorem mem_insert_trim {Image : Type} {d : Dict Int (Json × Image)} {seq : Int}
    {frame : Json × Image} {e : Int × Json × Image}
    (held : e ∈ ((d.insert seq frame).trim bufferSize).entries) :
    e ∈ d.entries ∨ e = (seq, frame) :=
  Dict.mem_insert (Dict.mem_of_mem_trim held)

section Step
variable {events : List (Event Rgb Depth)} {s : Session Rgb Depth}

theorem keyEvents_received {e : Event Rgb Depth} {key : Pairing.Event Int}
    (received : e.key? py = some key) : keyEvents py (events ++ [e]) = keyEvents py events ++ [key] := by
  simp [keyEvents, received]

theorem Refines.rgb_step (refines : Refines py bufferSize events s) (header : Json)
    (image : Option Rgb) :
    Refines py bufferSize (events ++ [.rgb header image]) (s.step py bufferSize (.rgb header image)) := by
  have ⟨rgb, depth, made⟩ := refines.grows (.rgb header image)
  cases decoded : decodeFrame py header image with
  | none =>
    simp only [Session.step, SensorSubscriber.runRgb, decoded]
    constructor
    case alive => exact refines.alive
    case keys => simp [keyEvents, Event.key?, decoded, refines.keys]
    all_goals assumption
  | some received =>
    obtain ⟨seq, frame⟩ := received
    have key : (Event.rgb header image : Event Rgb Depth).key? py = some (.left seq) := by
      simp only [Event.key?, decoded, Option.map_some]
    simp only [Session.step, SensorSubscriber.runRgb, decoded]
    constructor
    case alive => exact refines.alive
    case keys =>
      rw [keyEvents_received key, Pairing.run_append_singleton, ← refines.keys]
      simp only [Session.keys, Pairing.step, keys_insert_trim]
    case rgb =>
      intro e held
      rcases mem_insert_trim held with before | rfl
      · exact rgb e before
      · simp [rgbFrames, rgbFrame?, decoded]
    case depth => exact depth
    case made => exact made

theorem Refines.depth_step (refines : Refines py bufferSize events s) (header : Json)
    (image : Option Depth) :
    Refines py bufferSize (events ++ [.depth header image])
      (s.step py bufferSize (.depth header image)) := by
  have ⟨rgb, depth, made⟩ := refines.grows (.depth header image)
  cases decoded : decodeFrame py header image with
  | none =>
    simp only [Session.step, SensorSubscriber.runDepth, decoded]
    constructor
    case alive => exact refines.alive
    case keys => simp [keyEvents, Event.key?, decoded, refines.keys]
    all_goals assumption
  | some received =>
    obtain ⟨seq, frame⟩ := received
    have key : (Event.depth header image : Event Rgb Depth).key? py = some (.right seq) := by
      simp only [Event.key?, decoded, Option.map_some]
    simp only [Session.step, SensorSubscriber.runDepth, decoded]
    constructor
    case alive => exact refines.alive
    case keys =>
      rw [keyEvents_received key, Pairing.run_append_singleton, ← refines.keys]
      simp only [Session.keys, Pairing.step, keys_insert_trim]
    case rgb => exact rgb
    case depth =>
      intro e held
      rcases mem_insert_trim held with before | rfl
      · exact depth e before
      · simp [depthFrames, depthFrame?, decoded]
    case made => exact made

theorem Refines.pass_step (refines : Refines py bufferSize events s)
    (readable : Readable py s.subscriber) :
    Refines py bufferSize (events ++ [.pass]) (s.step py bufferSize .pass) := by
  have ⟨rgb, depth, made⟩ := refines.grows .pass
  obtain ⟨out, s', ran, matched⟩ := tryMatch_matched readable
  have stepped : s.step py bufferSize .pass =
      { s with subscriber := s', emitted := s.emitted ++ out } := by
    simp only [Session.step, refines.alive, if_true, ran]
  have key : (Event.pass : Event Rgb Depth).key? py = some .pass := rfl
  have uncommon (keys other : List Int) (seqs : List Int)
      (both : ∀ k ∈ keys, k ∈ seqs ↔ k ∈ other) :
      keys.filter (· ∉ seqs) = keys.filter (· ∉ other) := by
    apply List.filter_congr
    intro k held
    simp [both k held]
  have left : ∀ k ∈ s.subscriber.rgbBuf.keys,
      k ∈ s.subscriber.common ↔ k ∈ s.subscriber.depthBuf.keys := by
    intro k held
    simp [SensorSubscriber.common, held]
  have right : ∀ k ∈ s.subscriber.depthBuf.keys,
      k ∈ s.subscriber.common ↔ k ∈ s.subscriber.rgbBuf.keys := by
    intro k held
    simp [SensorSubscriber.common, held]
  rw [stepped]
  constructor
  case alive => exact refines.alive
  case keys =>
    rw [keyEvents_received key, Pairing.run_append_singleton, ← refines.keys]
    simp only [Session.keys, Pairing.step, matched.rgbKeys, matched.depthKeys, List.map_append,
      matched.given, uncommon _ _ _ left, uncommon _ _ _ right]
    rfl
  case rgb => exact fun e held => rgb e (matched.rgbKept e held)
  case depth => exact fun e held => depth e (matched.depthKept e held)
  case made =>
    intro fs given
    rcases List.mem_append.mp given with before | now
    · exact made fs before
    · obtain ⟨frame, frame', held, held', same⟩ := matched.made fs now
      exact ⟨frame, frame', rgb _ held, depth _ held', same⟩

end Step

theorem session_refines (events : List (Event Rgb Depth))
    (wellFormed : ∀ e ∈ events, e.WellFormed py) :
    Refines py bufferSize events (Session.run py bufferSize events) := by
  induction events using List.reverseRecOn with
  | nil =>
    constructor
    case alive => rfl
    case keys => rfl
    all_goals simp [Session.run]
  | append_singleton events e ih =>
    have earlier : ∀ e ∈ events, e.WellFormed py := fun e member =>
      wellFormed e (List.mem_append_left _ member)
    have refines := ih earlier
    rw [Session.run_append]
    cases e with
    | rgb header image => exact refines.rgb_step header image
    | depth header image => exact refines.depth_step header image
    | pass => exact refines.pass_step (refines.readable earlier)

/-- Both streams deliver increasing sequence numbers. -/
structure Increasing (py : Numbers) (events : List (Event Rgb Depth)) : Prop where
  rgb : ((rgbFrames py events).map Prod.fst).Pairwise (· < ·)
  depth : ((depthFrames py events).map Prod.fst).Pairwise (· < ·)

theorem Increasing.ordered {events : List (Event Rgb Depth)} (increasing : Increasing py events) :
    Pairing.Ordered (keyEvents py events) := by
  constructor
  · rw [lefts_keyEvents]
    exact increasing.rgb
  · rw [rights_keyEvents]
    exact increasing.depth

theorem Increasing.of_append {events events' : List (Event Rgb Depth)}
    (increasing : Increasing py (events ++ events')) : Increasing py events := by
  have ⟨rgb, depth⟩ := increasing
  rw [rgbFrames_append, List.map_append] at rgb
  rw [depthFrames_append, List.map_append] at depth
  exact ⟨(List.pairwise_append.mp rgb).1, (List.pairwise_append.mp depth).1⟩

/-- A pass of the matcher comes right after every insertion. -/
def Prompt (py : Numbers) (events : List (Event Rgb Depth)) : Prop :=
  ∀ before e after, events = before ++ e :: after →
    (rgbFrame? py e).isSome ∨ (depthFrame? py e).isSome → ∃ rest, after = .pass :: rest

theorem rgb_key {e : Event Rgb Depth} {seq : Int} {frame : Json × Rgb}
    (received : rgbFrame? py e = some (seq, frame)) : e.key? py = some (.left seq) := by
  cases e with
  | rgb header image =>
    have decoded : decodeFrame py header image = some (seq, frame) := received
    simp only [Event.key?, decoded, Option.map_some]
  | _ => cases received

theorem depth_key {e : Event Rgb Depth} {seq : Int} {frame : Json × Depth}
    (received : depthFrame? py e = some (seq, frame)) : e.key? py = some (.right seq) := by
  cases e with
  | depth header image =>
    have decoded : decodeFrame py header image = some (seq, frame) := received
    simp only [Event.key?, decoded, Option.map_some]
  | _ => cases received

theorem keyEvents_at {before after : List (Event Rgb Depth)} {e : Event Rgb Depth}
    {key : Pairing.Event Int} (received : e.key? py = some key) :
    keyEvents py (before ++ e :: .pass :: after) =
      keyEvents py before ++ key :: .pass :: keyEvents py after := by
  have pass : (Event.pass : Event Rgb Depth).key? py = some .pass := rfl
  rw [keyEvents_append]
  simp only [keyEvents, List.filterMap_cons, received, pass]

/-- For any interleaving of insertions and passes: no buffer outgrows its size, every
frameset joins the frames that came under its number, and numbers only increase. Where
a pass follows every insertion, a pair is lost exactly if `bufferSize` later frames
came on the stream of its first half before the second. -/
theorem matcher_pairs (room : 1 ≤ bufferSize) (events : List (Event Rgb Depth))
    (increasing : Increasing py events) (wellFormed : ∀ e ∈ events, e.WellFormed py) :
    (∀ before after, events = before ++ after →
      (Session.run py bufferSize before).subscriber.rgbBuf.entries.length ≤ bufferSize ∧
      (Session.run py bufferSize before).subscriber.depthBuf.entries.length ≤ bufferSize) ∧
    (∀ fs ∈ (Session.run py bufferSize events).emitted, ∃ header header',
      (fs.seq, header, fs.rgb) ∈ rgbFrames py events ∧
      (fs.seq, header', fs.depth) ∈ depthFrames py events ∧
      frameset py fs.seq (header, fs.rgb) (header', fs.depth) = .ok fs) ∧
    ((Session.run py bufferSize events).emitted.map (·.seq)).Pairwise (· < ·) ∧
    (Prompt py events → ∀ before e after seq, events = before ++ e :: after →
      ((∃ frame, depthFrame? py e = some (seq, frame)) → seq ∈ (rgbFrames py before).map Prod.fst →
        (seq ∈ (Session.run py bufferSize events).emitted.map (·.seq) ↔
          (rgbFrames py before).countP (fun frame => seq < frame.1) < bufferSize)) ∧
      ((∃ frame, rgbFrame? py e = some (seq, frame)) → seq ∈ (depthFrames py before).map Prod.fst →
        (seq ∈ (Session.run py bufferSize events).emitted.map (·.seq) ↔
          (depthFrames py before).countP (fun frame => seq < frame.1) < bufferSize))) := by
  have refines : Refines py bufferSize events (Session.run py bufferSize events) :=
    session_refines events wellFormed
  have inv := Pairing.invariant_run bufferSize increasing.ordered
  have emitted : (Session.run py bufferSize events).emitted.map (·.seq) =
      (Pairing.run bufferSize (keyEvents py events)).out := by
    rw [← refines.keys]
    rfl
  refine ⟨?_, ?_, ?_, ?_⟩
  · rintro before after rfl
    have refines : Refines py bufferSize before (Session.run py bufferSize before) :=
      session_refines before fun e member => wellFormed e (List.mem_append_left _ member)
    have inv := Pairing.invariant_run bufferSize increasing.of_append.ordered
    rw [← refines.keys] at inv
    constructor
    · simpa [Session.keys, Dict.keys] using inv.left_bounded
    · simpa [Session.keys, Dict.keys] using inv.right_bounded
  · intro fs given
    obtain ⟨⟨header, rgb⟩, ⟨header', depth⟩, held, held', made⟩ := refines.made fs given
    obtain ⟨-, same, same'⟩ := frameset_parts made
    rw [same, same']
    exact ⟨header, header', held, held', made⟩
  · rw [emitted]
    exact inv.increasing
  · rintro prompt before e after seq at_second
    rw [emitted]
    constructor
    · rintro ⟨frame, received⟩ first
      obtain ⟨rest, rfl⟩ := prompt before e after at_second (.inr (by simp [received]))
      subst at_second
      have ordered := increasing.ordered
      rw [keyEvents_at (depth_key received)] at ordered ⊢
      rw [← lefts_keyEvents] at first
      rw [Pairing.paired_right_iff room ordered first, lefts_keyEvents, List.countP_map]
      rfl
    · rintro ⟨frame, received⟩ first
      obtain ⟨rest, rfl⟩ := prompt before e after at_second (.inl (by simp [received]))
      subst at_second
      have ordered := increasing.ordered
      rw [keyEvents_at (rgb_key received)] at ordered ⊢
      rw [← rights_keyEvents] at first
      rw [Pairing.paired_left_iff room ordered first, rights_keyEvents, List.countP_map]
      rfl

/-! ## A depth stream that lags -/

/-- The schedule in which each message is followed by a pass. -/
theorem prompt_alternating (messages : List (Event Rgb Depth)) :
    Prompt py (messages.flatMap fun message => [message, .pass]) := by
  induction messages with
  | nil =>
    intro before e after split
    simp at split
  | cons message rest ih =>
    intro before e after split received
    rw [List.flatMap_cons] at split
    match before with
    | [] =>
      simp only [List.cons_append, List.nil_append, List.cons.injEq] at split
      exact ⟨_, split.2.symm⟩
    | [_] =>
      simp only [List.cons_append, List.nil_append, List.cons.injEq] at split
      obtain ⟨-, rfl, -⟩ := split
      simp [rgbFrame?, depthFrame?] at received
    | _ :: _ :: before =>
      simp only [List.cons_append, List.nil_append, List.cons.injEq] at split
      exact ih before e after split.2.2 received

/-- Numbers that are written as such. -/
def plainNumbers : Numbers where
  int
    | .integer n => .ok n
    | _ => .error .typeError
  float j := match j.number? with
    | some x => .ok x
    | none => .error .typeError

def frameHeader (seq : Int) : Json :=
  .object [("seq", .integer seq), ("ts_ns", .integer seq), ("intrinsics", .object [])]

theorem decodeFrame_header {Image : Type} {header header' : Json} {image : Option Image}
    {image' : Image} {seq : Int} (decoded : decodeFrame py header image = some (seq, header', image')) :
    header' = header := by
  unfold decodeFrame at decoded
  split at decoded
  · cases decoded
    rfl
  · cases decoded

theorem rgb_wellFormed (n : Int) (image : Option Rgb) :
    (.rgb (frameHeader n) image : Event Rgb Depth).WellFormed plainNumbers := by
  constructor
  · intro seq header image' received
    obtain rfl := decodeFrame_header received
    exact ⟨⟨n, rfl⟩, _, rfl⟩
  · intro seq header image' received
    cases received

theorem depth_wellFormed (n : Int) (image : Option Depth) :
    (.depth (frameHeader n) image : Event Rgb Depth).WellFormed plainNumbers := by
  constructor
  · intro seq header image' received
    cases received
  · intro seq header image' received
    obtain rfl := decodeFrame_header received
    exact ⟨_, rfl⟩

theorem pass_wellFormed : (.pass : Event Rgb Depth).WellFormed py := by
  constructor
  · intro seq header image received
    cases received
  · intro seq header image received
    cases received

/-- Two rgb frames, then their depth frames. -/
def lagging : List (Event Unit Unit) :=
  [.rgb (frameHeader 1) (some ()), .rgb (frameHeader 2) (some ()), .depth (frameHeader 1) (some ()),
    .depth (frameHeader 2) (some ())].flatMap fun message => [message, .pass]

/-- With room for one frame only the second pair is given out, with room for two also the first. -/
theorem matcher_pairs_lagging :
    1 ∉ (Session.run plainNumbers 1 lagging).emitted.map (·.seq) ∧
    2 ∈ (Session.run plainNumbers 1 lagging).emitted.map (·.seq) ∧
    1 ∈ (Session.run plainNumbers 2 lagging).emitted.map (·.seq) := by
  have increasing : Increasing plainNumbers lagging := by
    constructor
    · decide +kernel
    · decide +kernel
  have wellFormed : ∀ e ∈ lagging, e.WellFormed plainNumbers := by
    intro e member
    simp only [lagging, List.flatMap_cons, List.flatMap_nil, List.mem_append, List.mem_cons,
      List.not_mem_nil, or_false] at member
    rcases member with (rfl | rfl) | (rfl | rfl) | (rfl | rfl) | rfl | rfl
    · exact rgb_wellFormed 1 _
    · exact pass_wellFormed
    · exact rgb_wellFormed 2 _
    · exact pass_wellFormed
    · exact depth_wellFormed 1 _
    · exact pass_wellFormed
    · exact depth_wellFormed 2 _
    · exact pass_wellFormed
  have loss {size : Nat} (room : 1 ≤ size) := (matcher_pairs room lagging increasing wellFormed).2.2.2
    (prompt_alternating _)
  refine ⟨?_, ?_, ?_⟩
  · rw [(loss (by decide) (lagging.take 4) _ _ 1 rfl).1 ⟨_, rfl⟩ (by decide +kernel)]
    decide +kernel
  · rw [(loss (by decide) (lagging.take 6) _ _ 2 rfl).1 ⟨_, rfl⟩ (by decide +kernel)]
    decide +kernel
  · rw [(loss (by decide) (lagging.take 4) _ _ 1 rfl).1 ⟨_, rfl⟩ (by decide +kernel)]
    decide +kernel

end Lexaire.Sensor
