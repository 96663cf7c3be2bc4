import Lexaire.Replay.Store

/-! Recording the sensor channels and playing a recording. The times of a playback are
left out: it is not stopped, and sends its records in their order. -/
namespace Lexaire.Replay
open JsonText

/-- A message of `recv_multipart`, with the clock at its recording. -/
structure Received where
  channel : Units
  parts : List ByteArray
  tsNs : Int

structure Sent where
  channel : Units
  parts : List ByteArray

/-- A message as the sensors' subscribers understand it. -/
structure Content (F : Type) where
  channel : Units
  header : Value F
  payload : ByteArray

section
variable {F : Type} (py : Python F)

/-- `json.loads(parts[0].decode("utf-8"))`. -/
def decodeHeader (frame : ByteArray) : Except Raised (Value F) :=
  match String.fromUTF8? frame with
  | none => .error .unicodeDecodeError
  | some t => loads py t.toList

/-- `except (json.JSONDecodeError, UnicodeDecodeError)`. -/
def malformed : Raised → Bool
  | .json .decodeError | .unicodeDecodeError => true
  | _ => false

def recordOf (m : Received) : Except Raised (Option (Record F)) :=
  match m.parts with
  | frame :: payload :: _ =>
    match decodeHeader py frame with
    | .ok header =>
      .ok (some { channel := .string m.channel, tsNs := m.tsNs, header, payload := payload.data.toList })
    | .error e => if malformed e then .ok none else .error e
  | _ => .ok none

/-- What a message adds to the file. -/
def handle (m : Received) : Except Raised (List Char) :=
  match recordOf py m with
  | .error e => .error e
  | .ok none => .ok []
  | .ok (some rec) => written py rec

/-- The file of `_run_record`, closed, and the exception that ended it, if one did. -/
def runRecord : List Received → List Char × Option Raised
  | [] => ([], none)
  | m :: rest =>
    match handle py m with
    | .error e => ([], some e)
    | .ok text => (text ++ (runRecord rest).1, (runRecord rest).2)

/-- A message with two frames and a JSON header. -/
def content (channel : Units) : List ByteArray → Option (Content F)
  | frame :: payload :: _ =>
    match decodeHeader py frame with
    | .ok header => some { channel, header, payload }
    | .error _ => none
  | _ => none

/-- `pubs.get(rec.channel)` and what is sent there. -/
def send (channels : List Units) (rec : Record F) : Except Raised (Option Sent) :=
  match rec.channel with
  | .string name =>
    if name ∈ channels then
      match dumps py rec.header with
      | .ok t => .ok (some { channel := name, parts := [encodeText t, ⟨rec.payload.toArray⟩] })
      | .error e => .error e
    else .ok none
  | .array _ | .object _ => .error .typeError
  | _ => .ok none

def sendAll (channels : List Units) : List (Record F) → List Sent × Option Raised
  | [] => ([], none)
  | rec :: rest =>
    match send py channels rec with
    | .error e => ([], some e)
    | .ok none => sendAll channels rest
    | .ok (some sent) => (sent :: (sendAll channels rest).1, (sendAll channels rest).2)

/-- One pass of `_run_play`. -/
def runPlay (channels : List Units) (file : ByteArray) : List Sent × Option Raised :=
  if channels = [] then ([], none)
  else
    match readAll py file with
    | .error e => ([], some e)
    | .ok records => sendAll py channels records
end

/-! ## One message -/

section
variable {F : Type} {py : Python F}

theorem dumps_header {rec : Record F} {line : List Char} (wrote : rec.toLine py = .ok line) :
    JsonText.dumps py.floats py.limits rec.header = .ok (text py.floats rec.header) := by
  have written := toLine_eq_ok_iff.mp wrote
  rw [JsonText.dumps] at written ⊢
  split at written
  · cases written
  next accepted =>
  cases limit : py.limits.depth with
  | zero =>
    rw [limit] at accepted
    cases accepted
  | succ depth =>
    rw [limit] at accepted
    simp only [Record.toObject, refused, refusedMembers, Option.or_eq_none_iff] at accepted
    rw [refused_succ rec.header depth accepted.2.2.1]

theorem decodeHeader_wellFormed {frame : ByteArray} {v : Value F}
    (read : decodeHeader py frame = .ok v) : v.WellFormed := by
  rw [decodeHeader] at read
  split at read
  · cases read
  · rw [loads] at read
    split at read
    · next same =>
      cases read
      exact loads_wellFormed same
    · cases read

/-- A header that is sent reads as the header it was written for. -/
theorem decodeHeader_text {v : Value F} (formed : v.WellFormed)
    (wrote : JsonText.dumps py.floats py.limits v = .ok (text py.floats v)) :
    decodeHeader py (encodeText (text py.floats v)) = .ok v := by
  have read := loads_dumps formed wrote
  rw [decodeHeader, fromUTF8?_encodeText]
  simp only [String.toList_ofList, loads, read]

/-- The message is recorded, on this line. -/
structure Writes (py : Python F) (m : Received) (rec : Record F) (line : List Char) : Prop where
  wrote : rec.toLine py = .ok line
  channel : rec.channel = .string m.channel
  formed : rec.header.WellFormed
  content : content py m.channel m.parts = some ⟨m.channel, rec.header, ⟨rec.payload.toArray⟩⟩

theorem Writes.named {m : Received} {rec : Record F} {line : List Char}
    (writes : Writes py m rec line) : rec.channel.WellFormed := by
  rw [writes.channel]
  trivial

theorem handle_cases {m : Received} {text : List Char} (did : handle py m = .ok text) :
    (text = [] ∧ content py m.channel m.parts = none) ∨
      ∃ rec line, text = line ++ ['\n'] ∧ Writes py m rec line := by
  rw [handle] at did
  split at did
  · cases did
  · next skipped =>
    cases did
    refine .inl ⟨rfl, ?_⟩
    rw [recordOf] at skipped
    split at skipped
    · next parts =>
      split at skipped
      · cases skipped
      · next bad => simp [content, parts, bad]
    · next short =>
      rw [content]
      exact short
  · next rec recorded =>
    rw [recordOf] at recorded
    split at recorded
    · next frame payload more parts =>
      split at recorded
      · next header read =>
        cases recorded
        rw [written] at did
        split at did
        · cases did
        · next line wrote =>
          cases did
          refine .inr ⟨_, line, rfl, wrote, rfl, decodeHeader_wellFormed read, ?_⟩
          simp [content, parts, read]
      · split at recorded <;> cases recorded
    · cases recorded

theorem send_written {channels : List Units} {m : Received} {rec : Record F} {line : List Char}
    (writes : Writes py m rec line) (enabled : m.channel ∈ channels) :
    ∃ sent, send py channels rec = .ok (some sent) ∧ sent.channel = m.channel ∧
      content py sent.channel sent.parts = content py m.channel m.parts := by
  have header := dumps_header writes.wrote
  refine ⟨⟨m.channel, [encodeText (text py.floats rec.header), ⟨rec.payload.toArray⟩]⟩, ?_, rfl, ?_⟩
  · simp only [send, writes.channel, if_pos enabled, dumps, header]
  · rw [writes.content]
    simp only [content, decodeHeader_text writes.formed header]

/-! ## Whole recordings -/

/-- What a recording of these messages holds and what its playback sends. -/
structure Transcript (py : Python F) (channels : List Units) (messages : List Received)
    (lines : List (List Char)) (records : List (Record F)) (sent : List Sent) : Prop where
  file : (runRecord py messages).1 = lines.flatMap (· ++ ['\n'])
  printable : ∀ line ∈ lines, Printable line
  read : ∀ more, readLines py (lines ++ more) = (readLines py more).map (records ++ ·)
  played : sendAll py channels records = (sent, none)
  same : ∀ name, (sent.filter (·.channel = name)).map (fun s => content py s.channel s.parts) =
    ((messages.filter (·.channel = name)).filterMap fun m => content py m.channel m.parts).map some

theorem map_append_nil {ε α : Type} (result : Except ε (List α)) : result.map ([] ++ ·) = result := by
  cases result <;> rfl

theorem transcript_nil (channels : List Units) : Transcript py channels [] [] [] [] where
  file := rfl
  printable := by simp
  read more := (map_append_nil _).symm
  played := rfl
  same _ := rfl

variable {channels : List Units} {m : Received} {messages : List Received}
  {lines : List (List Char)} {records : List (Record F)} {sent : List Sent}

theorem Transcript.skip (rest : Transcript py channels messages lines records sent)
    (did : handle py m = .ok []) (none : content py m.channel m.parts = none) :
    Transcript py channels (m :: messages) lines records sent where
  file := by simp [runRecord, did, rest.file]
  printable := rest.printable
  read := rest.read
  played := rest.played
  same name := by
    rw [rest.same name, List.filter_cons]
    split
    · rw [List.filterMap_cons, none]
    · rfl

theorem Transcript.write {rec : Record F} {line : List Char} {one : Sent}
    (rest : Transcript py channels messages lines records sent)
    (did : handle py m = .ok (line ++ ['\n'])) (writes : Writes py m rec line)
    (sends : send py channels rec = .ok (some one)) (channel : one.channel = m.channel)
    (content_eq : content py one.channel one.parts = content py m.channel m.parts) :
    Transcript py channels (m :: messages) (line :: lines) (rec :: records) (one :: sent) where
  file := by simp [runRecord, did, rest.file]
  printable := by
    simp only [List.forall_mem_cons]
    exact ⟨(toLine_shape writes.wrote).1, rest.printable⟩
  read more := by
    rw [List.cons_append, readLines_line writes.named writes.formed writes.wrote, rest.read]
    cases readLines py more <;> rfl
  played := by simp [sendAll, sends, rest.played]
  same name := by
    by_cases here : m.channel = name
    · have sent_here : (one.channel = name) = True := by simp [channel, here]
      have received_here : (m.channel = name) = True := by simp [here]
      rw [List.filter_cons_of_pos (by simp [sent_here]), List.filter_cons_of_pos (by simp [here]),
        List.map_cons, content_eq, List.filterMap_cons, writes.content, List.map_cons, rest.same name]
    · rw [List.filter_cons_of_neg (by simp [channel, here]),
        List.filter_cons_of_neg (by simp [here]), rest.same name]

theorem exists_transcript (all : ∀ m ∈ messages, (handle py m).isOk = true)
    (enabled : ∀ m ∈ messages, m.channel ∈ channels) :
    ∃ lines records sent, Transcript py channels messages lines records sent := by
  induction messages with
  | nil => exact ⟨[], [], [], transcript_nil channels⟩
  | cons m messages ih =>
    simp only [List.forall_mem_cons] at all enabled
    obtain ⟨lines, records, sent, rest⟩ := ih all.2 enabled.2
    cases did : handle py m with
    | error e =>
      rw [did] at all
      cases all.1
    | ok text =>
      rcases handle_cases did with ⟨rfl, none⟩ | ⟨rec, line, rfl, writes⟩
      · exact ⟨lines, records, sent, rest.skip did none⟩
      · obtain ⟨one, sends, channel, same⟩ := send_written writes enabled.1
        exact ⟨_, _, _, rest.write did writes sends channel same⟩

/-- The file is played to its last complete line. -/
theorem Transcript.runPlay_eq (transcript : Transcript py channels messages lines records sent)
    (some : channels ≠ []) {tail : List Char} (printable : Printable tail)
    (nothing : readLines py (Lines.lines tail) = .ok []) :
    runPlay py channels (encodeText ((runRecord py messages).1 ++ tail)) = (sent, none) := by
  have read : readAll py (encodeText ((runRecord py messages).1 ++ tail)) = .ok records := by
    rw [transcript.file, readAll_written transcript.printable printable, transcript.read, nothing]
    simp [Except.map]
  rw [runPlay, if_neg some, read]
  exact transcript.played

/-- Playing the file sends on every channel what the messages of that channel with a
header held, in their order. -/
def Replays (py : Python F) (channels : List Units) (file : List Char) (messages : List Received) :
    Prop :=
  ∃ sent, runPlay py channels (encodeText file) = (sent, none) ∧ ∀ name,
    (sent.filter (·.channel = name)).map (fun s => content py s.channel s.parts) =
      ((messages.filter (·.channel = name)).filterMap fun m => content py m.channel m.parts).map some

theorem replays_of_handled (all : ∀ m ∈ messages, (handle py m).isOk = true)
    (enabled : ∀ m ∈ messages, m.channel ∈ channels) {tail : List Char} (printable : Printable tail)
    (nothing : readLines py (Lines.lines tail) = .ok []) :
    Replays py channels ((runRecord py messages).1 ++ tail) messages := by
  by_cases some : channels = []
  · have none : messages = [] := by
      apply List.eq_nil_iff_forall_not_mem.mpr
      intro m member
      have held := enabled m member
      rw [some] at held
      cases held
    subst none
    refine ⟨[], by rw [runPlay, if_pos some], fun _ => rfl⟩
  · obtain ⟨lines, records, sent, transcript⟩ := exists_transcript all enabled
    exact ⟨sent, transcript.runPlay_eq some printable nothing, transcript.same⟩

theorem runRecord_snoc (all : ∀ m ∈ messages, (handle py m).isOk = true) {text : List Char}
    (did : handle py m = .ok text) :
    (runRecord py (messages ++ [m])).1 = (runRecord py messages).1 ++ text := by
  induction messages with
  | nil => simp [runRecord, did]
  | cons first rest ih =>
    simp only [List.forall_mem_cons] at all
    cases first_did : handle py first with
    | error e =>
      rw [first_did] at all
      cases all.1
    | ok text' => simp [runRecord, first_did, ih all.2]

/-- A part of a line is played as nothing. -/
theorem readLines_cut {p q : List Char} (did : handle py m = .ok (p ++ q ++ ['\n'])) (more : q ≠ []) :
    Printable p ∧ readLines py (Lines.lines p) = .ok [] := by
  rcases handle_cases did with ⟨none, -⟩ | ⟨rec, line, same, writes⟩
  · simp at none
  · have cut : line = p ++ q := (List.append_cancel_right same).symm
    have printable := (toLine_shape writes.wrote).1
    rw [cut, printable_append] at printable
    refine ⟨printable.1, ?_⟩
    by_cases none : p = []
    · subst none
      rfl
    · rw [Lines.lines_last (not_mem_of_printable printable.1 rfl) none]
      exact readLines_part writes.named writes.formed writes.wrote cut more []

/-- What is asked of a recording and its playback: all messages are gone through, playing the
file sends what they held, and playing a file that is cut off in a line what stands before
that line. -/
structure Reproduces (py : Python F) (channels : List Units) (received : List Received) : Prop where
  finished : (runRecord py received).2 = none
  whole : Replays py channels (runRecord py received).1 received
  cut : ∀ {earlier m later p q}, received = earlier ++ m :: later →
    handle py m = .ok (p ++ q ++ ['\n']) → q ≠ [] →
    (runRecord py (earlier ++ [m])).1 = (runRecord py earlier).1 ++ (p ++ q ++ ['\n']) ∧
      Replays py channels ((runRecord py earlier).1 ++ p) earlier

/-! ## Which messages can be recorded -/

/-- A record is one container more than its header, and the time in it has to be written too. -/
def Writable (limits : Limits) (tsNs : Int) (header : Value F) : Prop :=
  ∃ depth, limits.depth = depth + 1 ∧
    refused (F := F) limits depth (.integer tsNs) = none ∧ refused limits depth header = none

/-- A header that is no JSON is caught where it is read, and one that is can be written. -/
structure Recordable (py : Python F) (m : Received) : Prop where
  caught : ∀ {frame payload more e}, m.parts = frame :: payload :: more →
    decodeHeader py frame = .error e → malformed e = true
  writable : ∀ {frame payload more header}, m.parts = frame :: payload :: more →
    decodeHeader py frame = .ok header → Writable py.limits m.tsNs header

theorem written_isOk_iff {rec : Record F} {name : Units} (named : rec.channel = .string name) :
    (written py rec).isOk = true ↔ Writable py.limits rec.tsNs rec.header := by
  have accepted : (written py rec).isOk = true ↔
      refused py.limits py.limits.depth rec.toObject = none := by
    rw [written, Record.toLine, dumps, JsonText.dumps]
    cases refused py.limits py.limits.depth rec.toObject <;> simp [Except.isOk, Except.toBool]
  rw [accepted, Record.toObject, named, Writable]
  cases limit : py.limits.depth with
  | zero => simp [refused]
  | succ depth => simp [refused, refusedMembers]

theorem handle_isOk_iff : (handle py m).isOk = true ↔ Recordable py m := by
  match parts : m.parts with
  | [] | [_] =>
    have did : handle py m = .ok [] := by simp [handle, recordOf, parts]
    refine iff_of_true (by simp [did, Except.isOk, Except.toBool]) ⟨?_, ?_⟩
    · intro frame payload more e same
      simp [parts] at same
    · intro frame payload more header same
      simp [parts] at same
  | frame :: payload :: more =>
    cases read : decodeHeader py frame with
    | error e =>
      have did : (handle py m).isOk = malformed e := by
        cases bad : malformed e <;>
          simp [handle, recordOf, parts, read, bad, Except.isOk, Except.toBool]
      rw [did]
      constructor
      · intro bad
        constructor
        · intro frame' payload' more' e' same raised
          obtain ⟨rfl, -⟩ := List.cons.inj (parts.symm.trans same)
          cases read.symm.trans raised
          exact bad
        · intro frame' payload' more' header same decoded
          obtain ⟨rfl, -⟩ := List.cons.inj (parts.symm.trans same)
          cases read.symm.trans decoded
      · exact fun fine => fine.caught parts read
    | ok header =>
      have did : handle py m = written py
          ⟨.string m.channel, m.tsNs, header, payload.data.toList⟩ := by
        simp [handle, recordOf, parts, read]
      rw [did, written_isOk_iff rfl]
      constructor
      · intro fits
        constructor
        · intro frame' payload' more' e same raised
          obtain ⟨rfl, -⟩ := List.cons.inj (parts.symm.trans same)
          cases read.symm.trans raised
        · intro frame' payload' more' header' same decoded
          obtain ⟨rfl, -⟩ := List.cons.inj (parts.symm.trans same)
          cases read.symm.trans decoded
          exact fits
      · exact fun fine => fine.writable parts read

theorem runRecord_finished_iff (received : List Received) :
    (runRecord py received).2 = none ↔ ∀ m ∈ received, (handle py m).isOk = true := by
  induction received with
  | nil => simp [runRecord]
  | cons m rest ih =>
    rw [List.forall_mem_cons, ← ih]
    cases did : handle py m with
    | error e => simp [runRecord, did, Except.isOk, Except.toBool]
    | ok text => simp [runRecord, did, Except.isOk, Except.toBool]

/-- The recording goes through all messages, and it and each part of it are played back,
exactly when no header is read or written with an exception that is not caught. -/
theorem replay_reproduces_iff {channels : List Units} {received : List Received}
    (enabled : ∀ m ∈ received, m.channel ∈ channels) :
    Reproduces py channels received ↔ ∀ m ∈ received, Recordable py m := by
  simp only [← handle_isOk_iff]
  constructor
  · exact fun reproduces => (runRecord_finished_iff received).mp reproduces.finished
  · intro all
    refine ⟨(runRecord_finished_iff received).mpr all, ?_, ?_⟩
    · have replays := replays_of_handled all enabled printable_nil rfl
      rwa [List.append_nil] at replays
    · rintro earlier m later p q rfl did more
      have all' : ∀ m ∈ earlier, (handle py m).isOk = true :=
        fun m member => all m (List.mem_append_left _ member)
      obtain ⟨printable, nothing⟩ := readLines_cut did more
      refine ⟨runRecord_snoc all' did, ?_⟩
      exact replays_of_handled all' (fun m member => enabled m (List.mem_append_left _ member))
        printable nothing

end

/-! One message of two frames, and one whose header is no JSON. -/

/-- A Python without floats but NaN. -/
def nanPython : Python Unit where
  floats := { nan := (), infinity := (), negInfinity := (), text := fun _ => "NaN".toList,
              ofText := fun _ => (), text_cases := fun _ => .inl ⟨rfl, rfl⟩ }
  limits := ⟨1000, 4300⟩
  intOfFloat _ := .error .valueError
  intOfText _ := .error .valueError

def imuSample : Received := ⟨str "imu", [encodeText "\x7b\"seq\": 1\x7d".toList, ⟨#[0, 255]⟩], 5⟩

def imuGarbled : Received := ⟨str "imu", [encodeText "\x7b\"seq\":".toList, ⟨#[7]⟩], 6⟩

def imuLine : List Char :=
  "\x7b\"channel\":\"imu\",\"ts_ns\":5,\"header\":\x7b\"seq\":1\x7d,\"payload\":\"AP8=\"\x7d".toList

theorem handle_imuSample : handle nanPython imuSample = .ok (imuLine ++ ['\n']) := by
  simp only [handle, recordOf, imuSample, decodeHeader, fromUTF8?_encodeText, String.toList_ofList]
  decide +kernel

theorem handle_imuGarbled : handle nanPython imuGarbled = .ok [] := by
  simp only [handle, recordOf, imuGarbled, decodeHeader, fromUTF8?_encodeText, String.toList_ofList]
  decide +kernel

/-- The file is the one line; cut off in it, nothing is played. -/
theorem replay_reproduces_iff_imu :
    Reproduces nanPython [str "imu"] [imuGarbled, imuSample] ∧
      Replays nanPython [str "imu"] (imuLine.take 40) [imuGarbled] := by
  have enabled : ∀ m ∈ [imuGarbled, imuSample], m.channel ∈ [str "imu"] := by
    simp [imuGarbled, imuSample]
  have recordable : ∀ m ∈ [imuGarbled, imuSample], Recordable nanPython m := by
    simp [← handle_isOk_iff, handle_imuGarbled, handle_imuSample, Except.isOk, Except.toBool]
  have reproduces := (replay_reproduces_iff enabled).mpr recordable
  have line : handle nanPython imuSample = .ok (imuLine.take 40 ++ imuLine.drop 40 ++ ['\n']) := by
    rw [List.take_append_drop, handle_imuSample]
  have split : [imuGarbled, imuSample] = [imuGarbled] ++ imuSample :: [] := rfl
  obtain ⟨-, played⟩ := reproduces.cut split line (by decide +kernel)
  exact ⟨reproduces, by simpa [runRecord, handle_imuGarbled] using played⟩

def ones (n : Nat) : List Char := '1' :: List.replicate n '1'

theorem scanLiteral_ones (n : Nat) : scanLiteral (ones n) = some (⟨[], ones n, [], []⟩, []) := by
  have digits : ∀ c ∈ List.replicate n '1', c.isDigit = true := by
    intro c member
    rw [List.eq_of_mem_replicate member]
    rfl
  have taken : (List.replicate n '1').takeWhile Char.isDigit = List.replicate n '1' :=
    List.takeWhile_eq_self_iff.mpr digits
  have dropped : (List.replicate n '1').dropWhile Char.isDigit = [] :=
    List.dropWhile_eq_nil_iff.mpr digits
  simp [ones, scanLiteral, scanSign, scanInteger, taken, dropped, scanFraction, scanExponent]

/-- An integer of too many digits is no JSON error. -/
theorem decodeHeader_ones {F : Type} {py : Python F} {n : Nat} (long : py.limits.digits < n + 1) :
    decodeHeader py (encodeText (ones n)) = .error (.json .valueError) := by
  have begins : skipSpace (ones n) = ones n := skipSpace_of_starts rfl
  have none : scanConstant py.floats (ones n) = none := by
    simp [scanConstant, constants, ones]
  have scalar : scanScalar py.floats py.limits (ones n) = .error .valueError := by
    simp only [scanScalar, none, scanNumber, scanLiteral_ones]
    simp [valueOfLiteral, Literal.isFloat, ones, long, Except.map]
  have scanned (depth : Nat) : scanOnce py.floats py.limits depth (ones n) = .error .valueError := by
    rw [← scalar]
    cases depth <;> rfl
  rw [decodeHeader, fromUTF8?_encodeText]
  simp only [String.toList_ofList, loads, JsonText.loads, begins, scanned]

/-- The header is one integer, of one digit more. -/
def imuInteger (n : Nat) : Received := ⟨str "imu", [encodeText (ones n), ⟨#[7]⟩], 4⟩

/-- The recorder dies of too long an integer, and the sample behind it is not played. -/
theorem imuInteger_loses {n : Nat} (long : nanPython.limits.digits < n + 1) :
    ¬ Replays nanPython [str "imu"] (runRecord nanPython [imuInteger n, imuSample]).1
      [imuInteger n, imuSample] := by
  rintro ⟨sent, played, same⟩
  have raised := decodeHeader_ones long
  have file : (runRecord nanPython [imuInteger n, imuSample]).1 = [] := by
    simp [runRecord, handle, recordOf, imuInteger, raised, malformed]
  have empty : readAll nanPython (encodeText []) = .ok [] := by
    rw [readAll, fromUTF8?_encodeText]
    rfl
  rw [file, runPlay, if_neg (by simp), empty] at played
  obtain rfl : [] = sent := congrArg Prod.fst played
  rcases handle_cases handle_imuSample with ⟨none, -⟩ | ⟨rec, line, -, writes⟩
  · simp at none
  · have lost := same (str "imu")
    have here : imuSample.channel = str "imu" := rfl
    have held := writes.content
    rw [here] at held
    simp [here, held] at lost

theorem long_integer_ends_recording : ¬ ∀ (F : Type) (py : Python F) (channels : List Units)
    (received : List Received), (∀ m ∈ received, m.channel ∈ channels) →
      Replays py channels (runRecord py received).1 received := by
  intro claimed
  have enabled (n : Nat) : ∀ m ∈ [imuInteger n, imuSample], m.channel ∈ [str "imu"] := by
    simp [imuInteger, imuSample]
  have long : nanPython.limits.digits < 4300 + 1 := by decide
  exact imuInteger_loses long (claimed Unit nanPython [str "imu"] _ (enabled 4300))

end Lexaire.Replay
