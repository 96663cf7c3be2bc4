import Lexaire.Core.MonitorRules
import Lexaire.Sensor.Matcher
import Lexaire.Sensor.OutputQueue

/-! The threads of the subscriber. Both stream threads and the matcher share the buffers
under the condition `_new_frame`; the matcher hands its framesets to the output queue. -/
namespace Lexaire.Sensor
open Atomic Transition Monitor

variable {Rgb Depth : Type} (py : Numbers) (bufferSize : Nat)

inductive Party where
  | rgb | depth | matcher | stopper
deriving DecidableEq

/-- What is done to the buffers. -/
inductive BufferOp (Rgb Depth : Type) where
  | setRgb (seq : Int) (frame : Json × Rgb)
  | trimRgb
  | setDepth (seq : Int) (frame : Json × Depth)
  | trimDepth
  | common
  | popRgb (seq : Int)
  | popDepth (seq : Int)
  | warnMissingScale

@[reducible] def BufferOp.Answer : BufferOp Rgb Depth → Type
  | .common => List Int
  | .popRgb _ => Option (Json × Rgb)
  | .popDepth _ => Option (Json × Depth)
  | _ => Unit

def BufferOp.run : (op : BufferOp Rgb Depth) → SensorSubscriber Rgb Depth →
    op.Answer × SensorSubscriber Rgb Depth
  | .setRgb seq frame, s => ((), { s with rgbBuf := s.rgbBuf.insert seq frame })
  | .trimRgb, s => ((), { s with rgbBuf := s.rgbBuf.trim bufferSize })
  | .setDepth seq frame, s => ((), { s with depthBuf := s.depthBuf.insert seq frame })
  | .trimDepth, s => ((), { s with depthBuf := s.depthBuf.trim bufferSize })
  | .common, s => (s.common, s)
  | .popRgb seq, s => (s.rgbBuf.find? seq, { s with rgbBuf := s.rgbBuf.erase seq })
  | .popDepth seq, s => (s.depthBuf.find? seq, { s with depthBuf := s.depthBuf.erase seq })
  | .warnMissingScale, s => ((), { s with warnedMissingDepthScale := true })

/-- What is done outside of the lock. From `begin` to `finish` the matcher puts a frameset
into the queue. -/
inductive OutsideOp (Rgb Depth : Type) where
  | setStop
  | isStopped
  | begin (fs : Frameset Rgb Depth)
  | finish

@[reducible] def OutsideOp.Answer : OutsideOp Rgb Depth → Type
  | .isStopped => Bool
  | _ => Unit

structure Outside (Rgb Depth : Type) where
  stopped : Bool := false
  output : Output (Frameset Rgb Depth) := {}

inductive OutsideOp.Performs : (op : OutsideOp Rgb Depth) → Outside Rgb Depth → op.Answer →
    Outside Rgb Depth → Prop where
  | setStop (t : Outside Rgb Depth) : Performs .setStop t () { t with stopped := true }
  | isStopped (t : Outside Rgb Depth) : Performs .isStopped t t.stopped t
  | begin {t : Outside Rgb Depth} {fs : Frameset Rgb Depth} {output : Output (Frameset Rgb Depth)}
      (begun : Output.Next t.output (.begins fs) output) : Performs (.begin fs) t () { t with output }
  | finish {t : Outside Rgb Depth} {output : Output (Frameset Rgb Depth)}
      (finished : Output.Next t.output .finishes output) : Performs .finish t () { t with output }

/-- What the queue sees between `begin` and `finish`, and of the consumer. -/
inductive Traffic (Rgb Depth : Type) where
  | performs (op : QueueOp (Frameset Rgb Depth))
  | gets (fs : Frameset Rgb Depth)
  | misses

def Traffic.label : Traffic Rgb Depth → OutputLabel (Frameset Rgb Depth)
  | .performs op => .performs op
  | .gets fs => .gets fs
  | .misses => .misses

/-! ## The threads' code -/

abbrev ThreadCode (Rgb Depth : Type) :=
  Code (@BufferOp.Answer Rgb Depth) (@OutsideOp.Answer Rgb Depth) PyError

abbrev BufferCode (Rgb Depth α : Type) :=
  Program (BufferOp Rgb Depth) BufferOp.Answer PyError α

/-- `while not self._stop.is_set()`, one round. -/
def unlessStopped (body : ThreadCode Rgb Depth) : ThreadCode Rgb Depth :=
  .step (.free .isStopped) fun
    | true => .done ()
    | false => body

/-- The section of a stream thread. -/
def store (set trim : BufferOp Rgb Depth) : ThreadCode Rgb Depth :=
  .step .acquire fun _ => .step (.guarded set) fun _ => .step (.guarded trim) fun _ =>
    .step .notify fun _ => .step .release fun _ => .done ()

/-- A message of `_run_rgb`. -/
def runRgbMessage (header : Json) (image : Option Rgb) : ThreadCode Rgb Depth :=
  match decodeFrame py header image with
  | some (seq, frame) => store (.setRgb seq frame) .trimRgb
  | none => .done ()

/-- A message of `_run_depth`. -/
def runDepthMessage (header : Json) (image : Option Depth) : ThreadCode Rgb Depth :=
  match decodeFrame py header image with
  | some (seq, frame) => store (.setDepth seq frame) .trimDepth
  | none => .done ()

def pop {Image : Type} (found : Option (Json × Image)) : BufferCode Rgb Depth (Json × Image) :=
  match found with
  | some frame => .done frame
  | none => .raise .keyError

def popRgb (seq : Int) : BufferCode Rgb Depth (Json × Rgb) :=
  Program.perform (BufferOp.popRgb seq) >>= fun found => pop found

def popDepth (seq : Int) : BufferCode Rgb Depth (Json × Depth) :=
  Program.perform (BufferOp.popDepth seq) >>= fun found => pop found

def warnMissing (header : Json) : BufferCode Rgb Depth Unit :=
  if missingScale header then Program.perform BufferOp.warnMissingScale else pure ()

/-- The loop of `_try_match_locked`. -/
def matchLocked : List Int → BufferCode Rgb Depth (List (Frameset Rgb Depth))
  | [] => pure []
  | seq :: rest => do
    let rgb ← popRgb seq
    let depth ← popDepth seq
    warnMissing depth.1
    match frameset py seq rgb depth with
    | .ok fs =>
      let out ← matchLocked rest
      return fs :: out
    | .error e => if e.caught then matchLocked rest else .raise e

/-- `_try_match_locked`. -/
def tryMatchLocked : BufferCode Rgb Depth (List (Frameset Rgb Depth)) :=
  Program.perform BufferOp.common >>= fun seqs => matchLocked py seqs

/-- `for fs in matched`. -/
def handOut : List (Frameset Rgb Depth) → ThreadCode Rgb Depth
  | [] => .done ()
  | fs :: rest => .step (.free (.begin fs)) fun _ => .step (.free .finish) fun _ => handOut rest

/-- Leaving the `with` block, for the rest of the round or with an exception. -/
def leaveWith (matched : List (Frameset Rgb Depth)) : ThreadCode Rgb Depth :=
  .step .release fun _ => handOut matched

def raiseWith (e : PyError) : ThreadCode Rgb Depth := .step .release fun _ => .raise e

/-- After the first `_try_match_locked`. -/
def matchOrWait : List (Frameset Rgb Depth) → ThreadCode Rgb Depth
  | [] => .step .wait fun _ => under (tryMatchLocked py) leaveWith raiseWith
  | matched => leaveWith matched

/-- A round of `_run_matcher`. -/
def runMatcherRound : ThreadCode Rgb Depth :=
  .step .acquire fun _ => under (tryMatchLocked py) (matchOrWait py) raiseWith

/-- `stop`, up to the joins. -/
def stopCode : ThreadCode Rgb Depth :=
  .step (.free .setStop) fun _ => .step .acquire fun _ => .step .notifyAll fun _ =>
    .step .release fun _ => .done ()

inductive Job (Rgb Depth : Type) where
  | rgb (header : Json) (image : Option Rgb)
  | depth (header : Json) (image : Option Depth)
  | round
  | stop

def Job.party : Job Rgb Depth → Party
  | .rgb _ _ => .rgb
  | .depth _ _ => .depth
  | .round => .matcher
  | .stop => .stopper

def Job.code : Job Rgb Depth → ThreadCode Rgb Depth
  | .rgb header image => unlessStopped (runRgbMessage py header image)
  | .depth header image => unlessStopped (runDepthMessage py header image)
  | .round => unlessStopped (runMatcherRound py)
  | .stop => stopCode

/-- What a section of a job counts as. -/
def Job.event? : Job Rgb Depth → Option (Event Rgb Depth)
  | .rgb header image => some (.rgb header image)
  | .depth header image => some (.depth header image)
  | .round => some .pass
  | .stop => none

def threads : Threads Party (Job Rgb Depth) (@BufferOp.Answer Rgb Depth)
    (@OutsideOp.Answer Rgb Depth) PyError (SensorSubscriber Rgb Depth) (Outside Rgb Depth)
    (Traffic Rgb Depth) where
  code := Job.code py
  begins i job := job.party = i
  run := BufferOp.run bufferSize
  performs _ := OutsideOp.Performs
  drifts t traffic t' := ∃ output, Output.Next t.output traffic.label output ∧ t' = { t with output }

abbrev SensorMachine (Rgb Depth : Type) :=
  Machine Party (Job Rgb Depth) (@BufferOp.Answer Rgb Depth) (@OutsideOp.Answer Rgb Depth) PyError
    (SensorSubscriber Rgb Depth) (Outside Rgb Depth)

abbrev SensorLabel (Rgb Depth : Type) :=
  Label Party (Job Rgb Depth) (@OutsideOp.Answer Rgb Depth) (BufferOp Rgb Depth) (Traffic Rgb Depth)

def SensorMachine.start : SensorMachine Rgb Depth := { shared := .unfed, outside := {} }

/-! ## A pass -/

section
variable {py bufferSize} {s s' : SensorSubscriber Rgb Depth} {seqs : List Int}
  {out : List (Frameset Rgb Depth)}

/-- Statement by statement the loop does what it does at once. -/
theorem run_matchLocked (distinct : seqs.Nodup)
    (held : ∀ seq ∈ seqs, seq ∈ s.rgbBuf.keys ∧ seq ∈ s.depthBuf.keys) :
    ((matchLocked py seqs).run (BufferOp.run bufferSize) s).result = (s.matchSeqs py seqs).1 ∧
      ((matchLocked py seqs).run (BufferOp.run bufferSize) s).state = (s.matchSeqs py seqs).2 := by
  induction seqs generalizing s with
  | nil => exact ⟨rfl, rfl⟩
  | cons seq rest ih =>
    obtain ⟨other, distinct⟩ := List.nodup_cons.mp distinct
    obtain ⟨held_rgb, held_depth⟩ := held seq List.mem_cons_self
    obtain ⟨rgb, found⟩ := s.rgbBuf.find?_of_mem_keys held_rgb
    obtain ⟨depth, found'⟩ := s.depthBuf.find?_of_mem_keys held_depth
    let popped : SensorSubscriber Rgb Depth := {
      rgbBuf := s.rgbBuf.erase seq
      depthBuf := s.depthBuf.erase seq
      warnedMissingDepthScale := s.warnedMissingDepthScale || missingScale depth.1 }
    have still : ∀ k ∈ rest, k ∈ popped.rgbBuf.keys ∧ k ∈ popped.depthBuf.keys := by
      intro k member
      have apart : k ≠ seq := fun same => other (same ▸ member)
      obtain ⟨left, right⟩ := held k (List.mem_cons_of_mem seq member)
      rw [Dict.keys_erase, Dict.keys_erase]
      simp [left, right, apart]
    obtain ⟨result, state⟩ := ih distinct still
    have warned : (warnMissing depth.1 : BufferCode Rgb Depth Unit).run (BufferOp.run bufferSize)
        { s with rgbBuf := s.rgbBuf.erase seq, depthBuf := s.depthBuf.erase seq } =
        ⟨if missingScale depth.1 then [.warnMissingScale] else [], popped, .ok ()⟩ := by
      cases missing : missingScale depth.1 <;>
        simp [warnMissing, missing, Program.perform, BufferOp.run, popped]
    simp only [matchLocked, popRgb, popDepth, pop, Program.perform_bind, Program.step_bind,
      Program.done_bind, Program.run_step, BufferOp.run, found, found', Program.run_bind,
      SensorSubscriber.matchSeqs, Program.Outcome.andThen, warned]
    cases made : frameset py seq rgb depth with
    | ok fs =>
      change _ = (popped.matchSeqs py rest).1.map (fs :: ·) ∧ _ = (popped.matchSeqs py rest).2
      simp only [Program.run_bind, Program.Outcome.andThen, ← result, ← state]
      cases ((matchLocked py rest).run (BufferOp.run bufferSize) popped).result <;> exact ⟨rfl, rfl⟩
    | error e =>
      by_cases caught : e.caught
      · simp only [caught, if_true]
        exact ⟨result, state⟩
      · simp only [caught]
        exact ⟨rfl, rfl⟩

theorem run_tryMatchLocked :
    ((tryMatchLocked py).run (BufferOp.run bufferSize) s).result = (s.tryMatch py).1 ∧
      ((tryMatchLocked py).run (BufferOp.run bufferSize) s).state = (s.tryMatch py).2 := by
  have held : ∀ seq ∈ s.common, seq ∈ s.rgbBuf.keys ∧ seq ∈ s.depthBuf.keys := by
    intro seq member
    simpa [SensorSubscriber.common] using member
  have distinct : s.common.Nodup := Finset.sort_nodup _ _
  exact run_matchLocked distinct held

/-- A loop that comes to its end has popped all of its numbers. -/
theorem matchSeqs_pops (ran : s.matchSeqs py seqs = (.ok out, s')) :
    s'.rgbBuf.keys = s.rgbBuf.keys.filter (· ∉ seqs) ∧
      s'.depthBuf.keys = s.depthBuf.keys.filter (· ∉ seqs) := by
  induction seqs generalizing s out with
  | nil =>
    obtain ⟨-, rfl⟩ := Prod.mk.inj ran
    simp
  | cons seq rest ih =>
    have both (keys : List Int) : (keys.filter (· ≠ seq)).filter (· ∉ rest) =
        keys.filter (· ∉ seq :: rest) := by
      rw [List.filter_filter]
      apply List.filter_congr
      intro k _
      by_cases same : k = seq <;> by_cases later : k ∈ rest <;> simp [same, later]
    rw [SensorSubscriber.matchSeqs] at ran
    split at ran
    · next rgb depth found found' =>
      have later : ∃ out, SensorSubscriber.matchSeqs py rest {
          rgbBuf := s.rgbBuf.erase seq
          depthBuf := s.depthBuf.erase seq
          warnedMissingDepthScale := s.warnedMissingDepthScale || missingScale depth.1 } =
          (.ok out, s') := by
        simp only at ran
        generalize SensorSubscriber.matchSeqs py rest _ = t at ran ⊢
        obtain ⟨result, t⟩ := t
        split at ran
        · cases result with
          | ok out =>
            obtain ⟨-, rfl⟩ := Prod.mk.inj ran
            exact ⟨out, rfl⟩
          | error e => cases (Prod.mk.inj ran).1
        · split at ran
          · exact ⟨out, ran⟩
          · cases (Prod.mk.inj ran).1
      obtain ⟨out, later⟩ := later
      obtain ⟨rgb, depth⟩ := ih later
      rw [rgb, depth, Dict.keys_erase, Dict.keys_erase, both, both]
      exact ⟨rfl, rfl⟩
    · cases (Prod.mk.inj ran).1

/-- After a pass no number is left that both buffers hold. -/
theorem common_of_tryMatch (ran : s.tryMatch py = (.ok out, s')) : s'.common = [] := by
  obtain ⟨rgb, depth⟩ := matchSeqs_pops ran
  apply List.eq_nil_iff_forall_not_mem.mpr
  intro seq member
  have held : seq ∈ s'.rgbBuf.keys ∧ seq ∈ s'.depthBuf.keys := by
    simpa [SensorSubscriber.common] using member
  rw [rgb, depth, List.mem_filter, List.mem_filter] at held
  obtain ⟨⟨left, popped⟩, right, -⟩ := held
  have both : seq ∈ s.common := by
    simp [SensorSubscriber.common, left, right]
  simp [both] at popped

end

/-! ## The discipline of the lock -/

section
variable {py bufferSize}

theorem disciplined_handOut (matched : List (Frameset Rgb Depth)) :
    Disciplined false (handOut matched) := by
  induction matched with
  | nil => rfl
  | cons fs rest ih => exact ⟨rfl, fun _ => ⟨rfl, fun _ => ih⟩⟩

theorem disciplined_leaveWith (matched : List (Frameset Rgb Depth)) :
    Disciplined true (leaveWith matched) := ⟨rfl, fun _ => disciplined_handOut matched⟩

theorem disciplined_raiseWith (e : PyError) :
    Disciplined true (raiseWith e : ThreadCode Rgb Depth) := ⟨rfl, fun _ => rfl⟩

theorem disciplined_matchOrWait (matched : List (Frameset Rgb Depth)) :
    Disciplined true (matchOrWait py matched) := by
  cases matched with
  | nil =>
    exact ⟨rfl, fun _ => disciplined_under _ disciplined_leaveWith disciplined_raiseWith⟩
  | cons fs rest => exact disciplined_leaveWith (fs :: rest)

theorem disciplined_unlessStopped {body : ThreadCode Rgb Depth} (disciplined : Disciplined false body) :
    Disciplined false (unlessStopped body) := by
  refine ⟨rfl, fun stopped => ?_⟩
  cases stopped with
  | true => rfl
  | false => exact disciplined

theorem disciplined_store (set trim : BufferOp Rgb Depth) : Disciplined false (store set trim) :=
  ⟨rfl, fun _ => ⟨rfl, fun _ => ⟨rfl, fun _ => ⟨rfl, fun _ => ⟨rfl, fun _ => rfl⟩⟩⟩⟩⟩

theorem disciplined_code (job : Job Rgb Depth) : Disciplined false (job.code py) := by
  cases job with
  | rgb header image =>
    apply disciplined_unlessStopped
    rw [runRgbMessage]
    split
    · exact disciplined_store _ _
    · rfl
  | depth header image =>
    apply disciplined_unlessStopped
    rw [runDepthMessage]
    split
    · exact disciplined_store _ _
    · rfl
  | round =>
    apply disciplined_unlessStopped
    exact ⟨rfl, fun _ => disciplined_under _ disciplined_matchOrWait disciplined_raiseWith⟩
  | stop => exact ⟨rfl, fun _ => ⟨rfl, fun _ => ⟨rfl, fun _ => ⟨rfl, fun _ => rfl⟩⟩⟩⟩

/-- There is nothing to match. -/
def Unmatched (s : SensorSubscriber Rgb Depth) : Prop := s.common = []

abbrev Attends (bufferSize : Nat) (waits : Bool) (p : ThreadCode Rgb Depth) : Prop :=
  Attentive (BufferOp.run bufferSize) Unmatched waits p

theorem attends_handOut (waits : Bool) (matched : List (Frameset Rgb Depth)) :
    Attends bufferSize waits (handOut matched) := by
  induction matched with
  | nil => trivial
  | cons fs rest ih =>
    refine ⟨by simp, fun _ => ⟨by simp [Call.enters], by simp, fun _ => ⟨by simp [Call.enters], ih⟩⟩⟩

theorem attends_unlessStopped {waits : Bool} {body : ThreadCode Rgb Depth}
    (attends : Attends bufferSize waits body) : Attends bufferSize waits (unlessStopped body) := by
  refine ⟨by simp, fun stopped => ⟨by simp [Call.enters], ?_⟩⟩
  cases stopped with
  | true => trivial
  | false => exact attends

/-- A stream thread tells the matcher of its frame. -/
theorem attends_store (set trim : BufferOp Rgb Depth) :
    Attends bufferSize false (store set trim) := by
  refine ⟨by simp, fun _ => ⟨fun _ s => ⟨?_, fun _ => .inl rfl⟩, ?_⟩⟩
  · intro next waits
    cases waits
  · simp [Attentive, Call.enters]

theorem attends_stopCode : Attends bufferSize false (stopCode : ThreadCode Rgb Depth) := by
  refine ⟨by simp, fun _ => ⟨by simp [Call.enters], by simp, fun _ => ⟨fun _ s => ⟨?_, fun _ => .inl rfl⟩, ?_⟩⟩⟩
  · intro next waits
    cases waits
  · simp [Attentive, Call.enters]

/-- The matcher waits only where its pass has left nothing. -/
theorem attends_matcher : Attends bufferSize true (runMatcherRound py : ThreadCode Rgb Depth) := by
  have left : ∀ matched, Attends bufferSize true (leaveWith matched : ThreadCode Rgb Depth) :=
    fun matched => ⟨by simp, fun _ => ⟨by simp [Call.enters], attends_handOut true matched⟩⟩
  have raised : ∀ e, Attends bufferSize true (raiseWith e : ThreadCode Rgb Depth) :=
    fun e => ⟨by simp, fun _ => ⟨by simp [Call.enters], trivial⟩⟩
  have second : ∀ s, Considerate (BufferOp.run bufferSize) Unmatched true
      (under (tryMatchLocked py) leaveWith raiseWith : ThreadCode Rgb Depth) s := by
    refine fun s => ⟨fun next waits => ?_, by simp⟩
    rw [leave_under] at waits
    split at waits <;> cases waits
  have first : ∀ s, Considerate (BufferOp.run bufferSize) Unmatched true
      (under (tryMatchLocked py) (matchOrWait py) raiseWith : ThreadCode Rgb Depth) s := by
    refine fun s => ⟨fun next waits => ?_, by simp⟩
    obtain ⟨result, state⟩ := @run_tryMatchLocked _ _ py bufferSize s
    rw [leave_under] at waits ⊢
    generalize (tryMatchLocked py).run (BufferOp.run bufferSize) s = ran at result state waits ⊢
    obtain ⟨_, s', matched⟩ := ran
    cases matched with
    | ok matched =>
      cases matched with
      | nil => exact common_of_tryMatch (Prod.ext result.symm state.symm)
      | cons fs rest => cases waits
    | error e => cases waits
  have waits : ∀ matched, Attends bufferSize true (matchOrWait py matched : ThreadCode Rgb Depth) := by
    intro matched
    cases matched with
    | nil => exact ⟨by simp, fun _ => ⟨fun _ => second, attentive_under _ left raised⟩⟩
    | cons fs rest => exact left (fs :: rest)
  exact ⟨by simp, fun _ => ⟨fun _ => first, attentive_under _ waits raised⟩⟩

theorem attends_code (job : Job Rgb Depth) :
    Attends bufferSize (decide (job.party = .matcher)) (job.code py) := by
  cases job with
  | rgb header image =>
    apply attends_unlessStopped
    rw [runRgbMessage]
    split
    · exact attends_store _ _
    · trivial
  | depth header image =>
    apply attends_unlessStopped
    rw [runDepthMessage]
    split
    · exact attends_store _ _
    · trivial
  | round => exact attends_unlessStopped attends_matcher
  | stop => exact attends_stopCode

end

end Lexaire.Sensor
