import Lexaire.Sensor.OutputQueue
import Lexaire.Sensor.Subscriber

/-! The perception loop (`perception/main.py`), beside the matcher that fills its queue and a
clock that passes as it will: between any two steps of the loop, so also while the detector
runs. The loop takes the time of a frameset when it takes it out of the queue. -/
namespace Lexaire.Perception
open Atomic Transition Sensor

variable {Rgb Depth Detection T : Type}

structure DetectorInputs (Rgb Depth : Type) where
  rgb : Rgb
  depth : Depth
  depthScaleM : Float
  intrinsics : Json

def DetectorInputs.ofFrameset (fs : Frameset Rgb Depth) : DetectorInputs Rgb Depth where
  rgb := fs.rgb
  depth := fs.depth
  depthScaleM := fs.depthScaleM
  intrinsics := fs.intrinsics

structure SceneHeader (Detection : Type) where
  tsNs : Int
  frameSeq : Int
  detections : List Detection

/-- A detector may raise any exception. -/
inductive Op (Rgb Depth Detection T : Type) where
  | sleep (seconds : T)
  | detect (inp : DetectorInputs Rgb Depth)
  | send (header : SceneHeader Detection)

@[reducible] def Op.Answer : Op Rgb Depth Detection T → Type
  | .sleep _ => Unit
  | .detect _ => Option (List Detection)
  | .send _ => Except Unit Unit

abbrev Code (Rgb Depth Detection T α : Type) :=
  Program (Op Rgb Depth Detection T) Op.Answer Unit α

def sleep (seconds : T) : Code Rgb Depth Detection T Unit := Program.perform (Op.sleep seconds)

def detect (inp : DetectorInputs Rgb Depth) : Code Rgb Depth Detection T (Option (List Detection)) :=
  Program.perform (Op.detect inp)

def send (header : SceneHeader Detection) : Code Rgb Depth Detection T Unit :=
  Program.perform (Op.send header) >>= fun r => Program.ofExcept r

/-- `onceDeadline` is there with `--once`; `pollS` is the 0.05 of the sleep. -/
structure Settings (T : Type) where
  intervalS : T
  frameMaxAgeS : T
  pollS : T
  onceDeadline : Option T

/-- The loop's variables. -/
structure Vars (Rgb Depth T : Type) where
  lastTick : T
  latestFs : Option (Frameset Rgb Depth)
  latestFsTs : T

/-- How a pass of the loop ends. -/
inductive Verdict (Rgb Depth T : Type) where
  | continues (v : Vars Rgb Depth T)
  | exits (code : Nat)

variable (settings : Settings T)

def sendScene (v : Vars Rgb Depth T) (fs : Frameset Rgb Depth) (detections : List Detection) :
    Code Rgb Depth Detection T (Verdict Rgb Depth T) := do
  send { tsNs := fs.tsNs, frameSeq := fs.seq, detections }
  if settings.onceDeadline.isSome then return .exits 0
  return .continues v

def detectScene (v : Vars Rgb Depth T) (fs : Frameset Rgb Depth) :
    Code Rgb Depth Detection T (Verdict Rgb Depth T) := do
  match ← detect (.ofFrameset fs) with
  | none => return .continues v
  | some detections => sendScene settings v fs detections

theorem detectScene_eq (v : Vars Rgb Depth T) (fs : Frameset Rgb Depth) :
    (detectScene settings v fs : Code Rgb Depth Detection T (Verdict Rgb Depth T)) =
      .step (.detect (.ofFrameset fs)) fun r =>
        match r with
        | none => .done (.continues v)
        | some detections => sendScene settings v fs detections := by
  refine congrArg (Program.step _) (funext fun r => ?_)
  cases r <;> rfl

theorem sendScene_eq (v : Vars Rgb Depth T) (fs : Frameset Rgb Depth) (detections : List Detection) :
    sendScene settings v fs detections = .step (.send ⟨fs.tsNs, fs.seq, detections⟩) fun r =>
      match r with
      | .error e => .raise e
      | .ok () => if settings.onceDeadline.isSome then .done (.exits 0) else .done (.continues v) := by
  refine congrArg (Program.step _) (funext fun r => ?_)
  cases r <;> rfl

variable [LinearOrder T] [Sub T]

/-- What follows the drain, from the time `now` on. -/
def tick (v : Vars Rgb Depth T) (now : T) : Code Rgb Depth Detection T (Verdict Rgb Depth T) :=
  if settings.onceDeadline.any (· ≤ now) && v.latestFs.isNone then return .exits 2
  else if now - v.lastTick < settings.intervalS then do
    sleep (min (settings.intervalS - (now - v.lastTick)) settings.pollS)
    return .continues v
  else
    let v := { v with lastTick := now }
    match v.latestFs with
    | none => return .continues v
    | some fs =>
      if settings.frameMaxAgeS < now - v.latestFsTs then return .continues v
      else detectScene settings v fs

/-! ## The loop beside the matcher -/

/-- A tick: the variables and the time it began with. The rest is only looked at from outside:
what had been enqueued when the drain ended, and whether the matcher had then just taken the
queue's only frameset out. -/
structure Tick (Rgb Depth T : Type) where
  vars : Vars Rgb Depth T
  now : T
  known : List (Frameset Rgb Depth × T)
  robbed : Bool

/-- Where the loop is: before its test of `stop`, before a `get_nowait`, with a frameset that
has not got its time, past the drain, and in the tick. -/
inductive Loop (Rgb Depth Detection T : Type) where
  | top (v : Vars Rgb Depth T)
  | draining (v : Vars Rgb Depth T)
  | received (v : Vars Rgb Depth T) (fs : Frameset Rgb Depth)
  | drained (v : Vars Rgb Depth T) (known : List (Frameset Rgb Depth × T)) (robbed : Bool)
  | ticking (t : Tick Rgb Depth T) (rest : Code Rgb Depth Detection T (Verdict Rgb Depth T))
  | ended (v : Vars Rgb Depth T)

/-- `enqueued` is what the matcher has put, with the times. `robbed` says that its last step took
the queue's only frameset out, to make room for another. -/
structure State (Rgb Depth Detection T : Type) where
  time : T
  output : Output (Frameset Rgb Depth) := {}
  loop : Loop Rgb Depth Detection T
  enqueued : List (Frameset Rgb Depth × T) := []
  robbed : Bool := false

/-- The frameset that a step of the matcher puts into the queue. -/
def puts? (s : Output (Frameset Rgb Depth)) :
    OutputLabel (Frameset Rgb Depth) → Option (Frameset Rgb Depth)
  | .performs (.put fs) | .performs (.putNowait fs) =>
    if s.queue.length < outputSize then some fs else none
  | _ => none

/-- The matcher takes the queue's only frameset out. -/
def robs (s : Output (Frameset Rgb Depth)) : OutputLabel (Frameset Rgb Depth) → Bool
  | .performs .getNowait => s.queue.length = 1
  | _ => false

def ofMatcher : OutputLabel (Frameset Rgb Depth) → Bool
  | .begins _ | .performs _ | .finishes => true
  | .gets _ | .misses => false

inductive Label (Rgb Depth Detection T : Type) where
  | elapses (time : T)
  | matcher (e : OutputLabel (Frameset Rgb Depth))
  | enters
  | stops
  | gets (fs : Frameset Rgb Depth)
  | stamps
  | misses
  | ticks
  | performs (op : Op Rgb Depth Detection T) (r : op.Answer)
  | repeats
  | ends

inductive Next : State Rgb Depth Detection T → Label Rgb Depth Detection T →
    State Rgb Depth Detection T → Prop where
  | elapses {s : State Rgb Depth Detection T} {time : T} (later : s.time ≤ time) :
      Next s (.elapses time) { s with time }
  | matcher {s : State Rgb Depth Detection T} {e : OutputLabel (Frameset Rgb Depth)}
      {output : Output (Frameset Rgb Depth)} (own : ofMatcher e = true)
      (moved : Output.Next s.output e output) :
      Next s (.matcher e) { s with
        output
        enqueued := s.enqueued ++ (puts? s.output e).toList.map (·, s.time)
        robbed := robs s.output e }
  | enters {s : State Rgb Depth Detection T} {v : Vars Rgb Depth T} (top : s.loop = .top v) :
      Next s .enters { s with loop := .draining v }
  | stops {s : State Rgb Depth Detection T} {v : Vars Rgb Depth T} (top : s.loop = .top v) :
      Next s .stops { s with loop := .ended v }
  | gets {s : State Rgb Depth Detection T} {v : Vars Rgb Depth T} {fs : Frameset Rgb Depth}
      {output : Output (Frameset Rgb Depth)} (draining : s.loop = .draining v)
      (moved : Output.Next s.output (.gets fs) output) :
      Next s (.gets fs) { s with output, loop := .received v fs }
  | stamps {s : State Rgb Depth Detection T} {v : Vars Rgb Depth T} {fs : Frameset Rgb Depth}
      (received : s.loop = .received v fs) :
      Next s .stamps { s with loop := .draining { v with latestFs := some fs, latestFsTs := s.time } }
  | misses {s : State Rgb Depth Detection T} {v : Vars Rgb Depth T}
      {output : Output (Frameset Rgb Depth)} (draining : s.loop = .draining v)
      (moved : Output.Next s.output .misses output) :
      Next s .misses { s with output, loop := .drained v s.enqueued s.robbed }
  | ticks {s : State Rgb Depth Detection T} {v : Vars Rgb Depth T}
      {known : List (Frameset Rgb Depth × T)} {robbed : Bool}
      (drained : s.loop = .drained v known robbed) :
      Next s .ticks { s with loop := .ticking ⟨v, s.time, known, robbed⟩ (tick settings v s.time) }
  | performs {s : State Rgb Depth Detection T} {t : Tick Rgb Depth T} {op : Op Rgb Depth Detection T}
      {next : op.Answer → Code Rgb Depth Detection T (Verdict Rgb Depth T)} (r : op.Answer)
      (at_op : s.loop = .ticking t (.step op next)) :
      Next s (.performs op r) { s with loop := .ticking t (next r) }
  | repeats {s : State Rgb Depth Detection T} {t : Tick Rgb Depth T} {v : Vars Rgb Depth T}
      (ended : s.loop = .ticking t (.done (.continues v))) : Next s .repeats { s with loop := .top v }
  | exits {s : State Rgb Depth Detection T} {t : Tick Rgb Depth T} {code : Nat}
      (ended : s.loop = .ticking t (.done (.exits code))) :
      Next s .ends { s with loop := .ended t.vars }
  | raises {s : State Rgb Depth Detection T} {t : Tick Rgb Depth T} {e : Unit}
      (raised : s.loop = .ticking t (.raise e)) : Next s .ends { s with loop := .ended t.vars }

/-! ## What is published, and when the detector runs -/

/-- In the tick, the detector has been given what the frameset holds and has answered so. -/
def Detected (path : List (State Rgb Depth Detection T × Label Rgb Depth Detection T))
    (t : Tick Rgb Depth T) (fs : Frameset Rgb Depth) (detections : List Detection) : Prop :=
  ∃ p ∈ path, (∃ rest, p.1.loop = .ticking t rest) ∧
    p.2 = .performs (.detect (.ofFrameset fs)) (some detections)

/-- The scene of a step that publishes one derives from the newest frameset that the matcher had
enqueued when the tick's drain ended, and had enqueued at most `frame_max_age_s` before the tick:
it has the frameset's time and number, and what the detector has found in its images. -/
def Fresh (before : List (State Rgb Depth Detection T × Label Rgb Depth Detection T))
    (p : State Rgb Depth Detection T × Label Rgb Depth Detection T) : Prop :=
  ∀ header r t rest, p.2 = .performs (.send header) r → p.1.loop = .ticking t rest →
    ∃ fs enqueuedAt, t.known.getLast? = some (fs, enqueuedAt) ∧
      header.tsNs = fs.tsNs ∧ header.frameSeq = fs.seq ∧ Detected before t fs header.detections ∧
      ¬ settings.frameMaxAgeS < t.now - enqueuedAt

/-- When a step publishes, the matcher has enqueued something at most `frame_max_age_s` before
the tick, and did not, when the drain ended, hold a frameset for which it had taken the queue's
only one out. -/
def Live (p : State Rgb Depth Detection T × Label Rgb Depth Detection T) : Prop :=
  ∀ header r t rest, p.2 = .performs (.send header) r → p.1.loop = .ticking t rest →
    t.robbed = false ∧ ∃ entry ∈ t.known, ¬ settings.frameMaxAgeS < t.now - entry.2

/-- The time of a tick that runs the detector. -/
def detectsAt? : State Rgb Depth Detection T × Label Rgb Depth Detection T → Option T
  | (s, .performs (.detect _) _) =>
    match s.loop with
    | .ticking t _ => some t.now
    | _ => none
  | _ => none

/-! ## A tick -/

section
variable {settings : Settings T}

/-- What is left of a tick, and a time that no tick before it that ran the detector is later
than. -/
inductive Stage (settings : Settings T) (v : Vars Rgb Depth T) (now : T) :
    T → Code Rgb Depth Detection T (Verdict Rgb Depth T) → Prop where
  | returned {v' : Vars Rgb Depth T} {bound : T} (kept : v'.latestFs = v.latestFs)
      (last : v'.lastTick = bound) : Stage settings v now bound (.done (.continues v'))
  | exits (bound : T) (code : Nat) : Stage settings v now bound (.done (.exits code))
  | raises (bound : T) (e : Unit) : Stage settings v now bound (.raise e)
  | sleeping (seconds : T) :
      Stage settings v now v.lastTick (sleep seconds >>= fun _ => pure (.continues v))
  | detecting {fs : Frameset Rgb Depth} (latest : v.latestFs = some fs)
      (due : ¬ now - v.lastTick < settings.intervalS) :
      Stage settings v now v.lastTick (detectScene settings { v with lastTick := now } fs)
  | sending {fs : Frameset Rgb Depth} (latest : v.latestFs = some fs) (detections : List Detection) :
      Stage settings v now now (sendScene settings { v with lastTick := now } fs detections)

/-- What an operation of a tick does, the bound before it and what is then left. -/
inductive TickEffect (settings : Settings T) (v : Vars Rgb Depth T) (now : T) :
    Op Rgb Depth Detection T → T → T → Code Rgb Depth Detection T (Verdict Rgb Depth T) → Prop where
  | sleeps (seconds bound : T) {rest : Code Rgb Depth Detection T (Verdict Rgb Depth T)}
      (stage : Stage settings v now bound rest) :
      TickEffect settings v now (.sleep seconds) bound bound rest
  | detects (inp : DetectorInputs Rgb Depth) {rest : Code Rgb Depth Detection T (Verdict Rgb Depth T)}
      (due : ¬ now - v.lastTick < settings.intervalS) (stage : Stage settings v now now rest) :
      TickEffect settings v now (.detect inp) v.lastTick now rest
  | sends {fs : Frameset Rgb Depth} (latest : v.latestFs = some fs) (detections : List Detection)
      (bound : T) {rest : Code Rgb Depth Detection T (Verdict Rgb Depth T)}
      (stage : Stage settings v now bound rest) :
      TickEffect settings v now (.send ⟨fs.tsNs, fs.seq, detections⟩) bound bound rest

variable {v : Vars Rgb Depth T} {now bound : T}

theorem TickEffect.stage {op : Op Rgb Depth Detection T} {bound' : T}
    {rest : Code Rgb Depth Detection T (Verdict Rgb Depth T)}
    (effect : TickEffect settings v now op bound bound' rest) : Stage settings v now bound' rest := by
  cases effect with
  | sleeps seconds bound stage => exact stage
  | detects inp due stage => exact stage
  | sends latest detections bound stage => exact stage

theorem stage_tick (v : Vars Rgb Depth T) (now : T) :
    ∃ bound, Stage settings v now bound
        (tick settings v now : Code Rgb Depth Detection T (Verdict Rgb Depth T)) ∧
      (bound = v.lastTick ∨ bound = now) := by
  unfold tick
  split
  · exact ⟨now, .exits now 2, .inr rfl⟩
  · split
    · exact ⟨_, .sleeping _, .inl rfl⟩
    · next due =>
      dsimp only
      split
      · next missing =>
        refine ⟨now, ?_, .inr rfl⟩
        exact .returned rfl rfl
      · next fs latest =>
        split
        · refine ⟨now, ?_, .inr rfl⟩
          exact .returned rfl rfl
        · exact ⟨_, .detecting latest due, .inl rfl⟩

theorem Stage.performs {op : Op Rgb Depth Detection T}
    {next : op.Answer → Code Rgb Depth Detection T (Verdict Rgb Depth T)}
    (stage : Stage settings v now bound (.step op next)) (r : op.Answer) :
    ∃ bound', TickEffect settings v now op bound bound' (next r) := by
  generalize same : Program.step op next = rest at stage
  cases stage with
  | returned kept last => cases same
  | exits code => cases same
  | raises e => cases same
  | sleeping seconds =>
    cases same
    exact ⟨_, .sleeps seconds _ (.returned rfl rfl)⟩
  | detecting latest due =>
    rw [detectScene_eq settings] at same
    cases same
    refine ⟨now, .detects _ due ?_⟩
    cases r with
    | none => exact .returned rfl rfl
    | some detections => exact .sending latest detections
  | sending latest detections =>
    rw [sendScene_eq settings] at same
    cases same
    refine ⟨_, .sends latest detections _ ?_⟩
    cases r with
    | error e => exact .raises _ e
    | ok sent =>
      dsimp only
      split
      · exact .exits _ 0
      · exact .returned rfl rfl

/-- A scene is sent right after the detector has answered, with that answer. -/
theorem Stage.sends {op : Op Rgb Depth Detection T}
    {next : op.Answer → Code Rgb Depth Detection T (Verdict Rgb Depth T)}
    (stage : Stage settings v now bound (.step op next)) {r : op.Answer}
    {header : SceneHeader Detection}
    {rest : Except Unit Unit → Code Rgb Depth Detection T (Verdict Rgb Depth T)}
    (sends : next r = .step (.send header) rest) : ∃ fs detections, v.latestFs = some fs ∧
      Label.performs op r = .performs (.detect (.ofFrameset fs)) (some detections) ∧
      header = ⟨fs.tsNs, fs.seq, detections⟩ := by
  generalize same : Program.step op next = left at stage
  cases stage with
  | returned kept last => cases same
  | exits code => cases same
  | raises e => cases same
  | sleeping seconds =>
    cases same
    cases sends
  | @detecting fs latest due =>
    rw [detectScene_eq settings] at same
    cases same
    cases r with
    | none => cases sends
    | some detections =>
      dsimp only at sends
      rw [sendScene_eq settings] at sends
      cases sends
      exact ⟨fs, detections, latest, rfl, rfl⟩
  | sending latest detections =>
    rw [sendScene_eq settings] at same
    cases same
    cases r with
    | error e => cases sends
    | ok sent =>
      dsimp only at sends
      split at sends <;> cases sends

/-- A tick does not begin with it. -/
theorem tick_sends_not (v : Vars Rgb Depth T) (now : T) (header : SceneHeader Detection)
    (rest : Except Unit Unit → Code Rgb Depth Detection T (Verdict Rgb Depth T)) :
    tick settings v now ≠ .step (.send header) rest := by
  intro sends
  unfold tick at sends
  split at sends
  · cases sends
  · split at sends
    · cases sends
    · dsimp only at sends
      split at sends
      · cases sends
      · split at sends
        · cases sends
        · rw [detectScene_eq settings] at sends
          cases sends

theorem Stage.continues {v' : Vars Rgb Depth T}
    (stage : Stage settings v now bound
      (.done (.continues v') : Code Rgb Depth Detection T (Verdict Rgb Depth T))) :
    v'.latestFs = v.latestFs ∧ v'.lastTick = bound := by
  generalize same : Program.done (Verdict.continues v') = rest at stage
  cases stage with
  | returned kept last =>
    cases same
    exact ⟨kept, last⟩
  | exits code => cases same
  | raises e => cases same
  | sleeping seconds => cases same
  | detecting latest due =>
    rw [detectScene_eq settings] at same
    cases same
  | sending latest detections =>
    rw [sendScene_eq settings] at same
    cases same
end

/-! ## The newest frameset -/

/-- A `get_nowait` of the matcher leaves the newest frameset where it was, unless it was the only
one. -/
theorem getNowait_newest {fs : Frameset Rgb Depth} {queue : List (Frameset Rgb Depth)}
    {next : (QueueOp.getNowait : QueueOp (Frameset Rgb Depth)).Answer →
      QueueCode (Frameset Rgb Depth) Unit}
    {latest newest : Option (Frameset Rgb Depth)}
    (effect : Effect fs .getNowait queue (QueueOp.run .getNowait queue).2
      (next (QueueOp.run .getNowait queue).1))
    (found : queue.getLast?.or latest = newest) :
    (queue.length ≠ 1 → (QueueOp.run .getNowait queue).2.getLast?.or latest = newest) ∧
      (queue.length = 1 → (QueueOp.run .getNowait queue).2 = [] ∧
        next (QueueOp.run .getNowait queue).1 = putLast fs) := by
  cases queue with
  | nil => exact ⟨fun _ => found, fun one => by cases one⟩
  | cons oldest rest =>
    cases rest with
    | nil =>
      refine ⟨fun more => absurd rfl more, fun _ => ?_⟩
      generalize QueueOp.run .getNowait [oldest] = ran at effect ⊢
      obtain ⟨r, queue'⟩ := ran
      generalize next r = left at effect ⊢
      cases effect with
      | puts other room => exact absurd rfl other
      | timesOut other => exact absurd rfl other
      | displaces room => exact ⟨rfl, rfl⟩
    | cons second rest =>
      refine ⟨fun _ => ?_, fun one => ?_⟩
      · rw [List.getLast?_cons_cons] at found
        exact found
      · simp at one

/-- Where the newest frameset is: at the end of the queue, or the last that was taken out of it,
unless the matcher took it. -/
theorem matcher_newest {output output' : Output (Frameset Rgb Depth)}
    {e : OutputLabel (Frameset Rgb Depth)} (own : ofMatcher e = true) (kept : Bounded output)
    (moved : Output.Next output e output') {robbed : Bool}
    {latest newest : Option (Frameset Rgb Depth)}
    (found : robbed = false → output.queue.getLast?.or latest = newest)
    (taken : robbed = true → output.queue = [] ∧ ∃ fs, output.matcher = some (fs, putLast fs)) :
    (robs output e = false → output'.queue.getLast?.or latest = (puts? output e).or newest) ∧
      (robs output e = true →
        output'.queue = [] ∧ ∃ fs, output'.matcher = some (fs, putLast fs)) := by
  have notRobbed (other : ∀ fs, output.matcher ≠ some (fs, putLast fs)) : robbed = false := by
    cases same : robbed with
    | false => rfl
    | true =>
      obtain ⟨-, fs, holds⟩ := taken same
      exact absurd holds (other fs)
  cases moved with
  | begins idle =>
    have unrobbed := notRobbed fun fs holds => by cases idle.symm.trans holds
    exact ⟨fun _ => found unrobbed, fun robs => by cases robs⟩
  | finishes ended =>
    have unrobbed := notRobbed fun fs holds => by
      rw [putLast_eq] at holds
      cases ended.symm.trans holds
    exact ⟨fun _ => found unrobbed, fun robs => by cases robs⟩
  | gets head => cases own
  | misses empty => cases own
  | @performs fs op next at_op =>
    have effect := stage_performs kept.bounded (kept.stage _ _ at_op)
    cases op with
    | put fs' | putNowait fs' =>
      refine ⟨fun _ => ?_, fun robs => by cases robs⟩
      by_cases room : output.queue.length < outputSize
      · simp [QueueOp.run, puts?, room]
      · have unrobbed : robbed = false := by
          cases same : robbed with
          | false => rfl
          | true =>
            rw [(taken same).1] at room
            exact absurd (Nat.zero_lt_succ 15) room
        simpa [QueueOp.run, puts?, room] using found unrobbed
    | getNowait =>
      have unrobbed := notRobbed fun fs holds => by
        rw [putLast_eq] at holds
        cases at_op.symm.trans holds
      obtain ⟨stays, taken⟩ := getNowait_newest effect (found unrobbed)
      constructor
      · intro robs
        exact stays (of_decide_eq_false robs)
      · intro robs
        obtain ⟨empty, left⟩ := taken (of_decide_eq_true robs)
        exact ⟨empty, fs, congrArg (fun rest => some (fs, rest)) left⟩

/-! ## Runs -/

/-- The frameset that the loop took last. -/
def Loop.latest : Loop Rgb Depth Detection T → Option (Frameset Rgb Depth)
  | .top v | .draining v | .drained v _ _ | .ended v => v.latestFs
  | .received _ fs => some fs
  | .ticking t _ => t.vars.latestFs

/-- What the loop knows when its drain ends. -/
structure Known (v : Vars Rgb Depth T) (known : List (Frameset Rgb Depth × T)) (robbed : Bool) :
    Prop where
  sorted : known.Pairwise (·.2 ≤ ·.2)
  newest : robbed = false → v.latestFs = known.getLast?.map (·.1)

def Loop.Informed : Loop Rgb Depth Detection T → Prop
  | .drained v known robbed => Known v known robbed
  | .ticking t _ => Known t.vars t.known t.robbed
  | _ => True

/-- A time that no tick that ran the detector is later than, as far as the loop can tell. -/
inductive Bounds (settings : Settings T) : Loop Rgb Depth Detection T → T → Prop where
  | top (v : Vars Rgb Depth T) : Bounds settings (.top v) v.lastTick
  | draining (v : Vars Rgb Depth T) : Bounds settings (.draining v) v.lastTick
  | received (v : Vars Rgb Depth T) (fs : Frameset Rgb Depth) :
      Bounds settings (.received v fs) v.lastTick
  | drained (v : Vars Rgb Depth T) (known : List (Frameset Rgb Depth × T)) (robbed : Bool) :
      Bounds settings (.drained v known robbed) v.lastTick
  | ticking {t : Tick Rgb Depth T} {rest : Code Rgb Depth Detection T (Verdict Rgb Depth T)} {bound : T}
      (stage : Stage settings t.vars t.now bound rest) : Bounds settings (.ticking t rest) bound
  | ended (v : Vars Rgb Depth T) (bound : T) : Bounds settings (.ended v) bound

section
variable {settings : Settings T} {s s' : State Rgb Depth Detection T}
  {e : Label Rgb Depth Detection T}
  {path : List (State Rgb Depth Detection T × Label Rgb Depth Detection T)}

theorem getLast?_or_head {α : Type} {x : α} {rest : List α} {other : Option α} :
    rest.getLast?.or (some x) = (x :: rest).getLast?.or other := by
  cases rest with
  | nil => rfl
  | cons y rest => simp [List.getLast?_cons]

/-- The loop has, or will find, the newest frameset. -/
structure Tracked (settings : Settings T) (s : State Rgb Depth Detection T) : Prop where
  bounded : Bounded s.output
  newest : s.robbed = false →
    s.output.queue.getLast?.or s.loop.latest = s.enqueued.getLast?.map (·.1)
  taken : s.robbed = true → s.output.queue = [] ∧ ∃ fs, s.output.matcher = some (fs, putLast fs)
  past : ∀ entry ∈ s.enqueued, entry.2 ≤ s.time
  sorted : s.enqueued.Pairwise (·.2 ≤ ·.2)
  informed : s.loop.Informed
  staged : ∃ bound, Bounds settings s.loop bound

/-- A step of the loop that takes nothing out of the queue. -/
theorem Tracked.loop {loop : Loop Rgb Depth Detection T} (tracked : Tracked settings s)
    (latest : loop.latest = s.loop.latest) (informed : loop.Informed)
    (staged : ∃ bound, Bounds settings loop bound) : Tracked settings { s with loop } :=
  { tracked with
    newest := fun unrobbed => latest ▸ tracked.newest unrobbed
    informed
    staged }

theorem Tracked.matcher {e : OutputLabel (Frameset Rgb Depth)} {output : Output (Frameset Rgb Depth)}
    (tracked : Tracked settings s) (own : ofMatcher e = true) (moved : Output.Next s.output e output) :
    Tracked settings { s with
      output
      enqueued := s.enqueued ++ (puts? s.output e).toList.map (·, s.time)
      robbed := robs s.output e } := by
  obtain ⟨newest, taken⟩ := matcher_newest own tracked.bounded moved tracked.newest tracked.taken
  refine ⟨bounded_next tracked.bounded moved, ?_, taken, ?_, ?_, tracked.informed, tracked.staged⟩
  · intro unrobbed
    rw [newest unrobbed, List.getLast?_append]
    cases puts? s.output e <;> simp
  · intro entry member
    rcases List.mem_append.mp member with earlier | now
    · exact tracked.past entry earlier
    · obtain ⟨fs, -, rfl⟩ := List.mem_map.mp now
      exact le_rfl
  · rw [List.pairwise_append]
    refine ⟨tracked.sorted, ?_, ?_⟩
    · cases puts? s.output e <;> simp
    · intro entry earlier last now
      obtain ⟨fs, -, rfl⟩ := List.mem_map.mp now
      exact tracked.past entry earlier

theorem tracked_next (tracked : Tracked settings s) (moved : Next settings s e s') :
    Tracked settings s' := by
  obtain ⟨bound, bounds⟩ := tracked.staged
  cases moved with
  | elapses later =>
    exact { tracked with past := fun entry member => (tracked.past entry member).trans later }
  | matcher own moved => exact tracked.matcher own moved
  | enters top => exact tracked.loop (by rw [top]; rfl) trivial ⟨_, .draining _⟩
  | stops top => exact tracked.loop (by rw [top]; rfl) trivial ⟨bound, .ended _ _⟩
  | @gets v fs output draining moved =>
    have kept := bounded_next tracked.bounded moved
    cases moved with
    | gets head =>
      refine ⟨kept, ?_, ?_, tracked.past, tracked.sorted, trivial, _, .received v fs⟩
      · intro unrobbed
        have newest := tracked.newest unrobbed
        rw [head] at newest
        rw [← newest]
        exact getLast?_or_head
      · intro robbed
        rw [(tracked.taken robbed).1] at head
        cases head
  | stamps received => exact tracked.loop (by rw [received]; rfl) trivial ⟨_, .draining _⟩
  | @misses v output draining moved =>
    cases moved with
    | misses empty =>
      refine tracked.loop (by rw [draining]; rfl) ⟨tracked.sorted, fun unrobbed => ?_⟩
        ⟨_, .drained _ _ _⟩
      have newest := tracked.newest unrobbed
      rw [empty, draining] at newest
      exact newest
  | @ticks v known robbed drained =>
    obtain ⟨bound, stage, -⟩ := @stage_tick _ _ Detection _ _ _ settings v s.time
    have informed := tracked.informed
    rw [drained] at informed
    exact tracked.loop (by rw [drained]; rfl) informed ⟨bound, .ticking stage⟩
  | performs r at_op =>
    rw [at_op] at bounds
    cases bounds with
    | ticking stage =>
      obtain ⟨bound', effect⟩ := stage.performs r
      have informed := tracked.informed
      rw [at_op] at informed
      exact tracked.loop (by rw [at_op]; rfl) informed ⟨bound', .ticking effect.stage⟩
  | repeats ended =>
    rw [ended] at bounds
    cases bounds with
    | ticking stage =>
      exact tracked.loop (by rw [ended]; exact stage.continues.1) trivial ⟨_, .top _⟩
  | exits ended => exact tracked.loop (by rw [ended]; rfl) trivial ⟨bound, .ended _ _⟩
  | raises raised => exact tracked.loop (by rw [raised]; rfl) trivial ⟨bound, .ended _ _⟩

/-- The ticks so far that ran the detector are spaced, and the next one will be. -/
structure Spaced (settings : Settings T)
    (path : List (State Rgb Depth Detection T × Label Rgb Depth Detection T))
    (s : State Rgb Depth Detection T) : Prop where
  spaced : (path.filterMap detectsAt?).Pairwise fun first second =>
    ¬ second - first < settings.intervalS
  past : ∀ time ∈ path.filterMap detectsAt?, time ≤ s.time
  begun : ∀ t rest, s.loop = .ticking t rest →
    t.now ≤ s.time ∧ ∀ time ∈ path.filterMap detectsAt?, time ≤ t.now
  bounded : ∃ bound, Bounds settings s.loop bound ∧ ∀ time ∈ path.filterMap detectsAt?, time ≤ bound

/-- A step that does not run the detector. -/
theorem Spaced.idle (spaced : Spaced settings path s) (silent : detectsAt? (s, e) = none)
    (later : s.time ≤ s'.time)
    (begun : ∀ t rest, s'.loop = .ticking t rest →
      t.now ≤ s'.time ∧ ∀ time ∈ path.filterMap detectsAt?, time ≤ t.now)
    (bounded : ∃ bound, Bounds settings s'.loop bound ∧
      ∀ time ∈ path.filterMap detectsAt?, time ≤ bound) :
    Spaced settings (path ++ [(s, e)]) s' := by
  have same : (path ++ [(s, e)]).filterMap detectsAt? = path.filterMap detectsAt? := by
    rw [filterMap_snoc, silent, Option.toList_none, List.append_nil]
  constructor
  · rw [same]
    exact spaced.spaced
  · intro time member
    exact (spaced.past time (same ▸ member)).trans later
  · intro t rest ticking
    rw [same]
    exact begun t rest ticking
  · rw [same]
    exact bounded

/-- A step to where no tick is under way. -/
theorem Spaced.loop {loop : Loop Rgb Depth Detection T} {output : Output (Frameset Rgb Depth)}
    (spaced : Spaced settings path s) (silent : detectsAt? (s, e) = none)
    (idle : ∀ t rest, loop ≠ .ticking t rest)
    (bounded : ∀ bound, Bounds settings s.loop bound → Bounds settings loop bound) :
    Spaced settings (path ++ [(s, e)]) { s with output, loop } := by
  obtain ⟨bound, bounds, all⟩ := spaced.bounded
  exact spaced.idle silent le_rfl (fun t rest ticking => absurd ticking (idle t rest))
    ⟨bound, bounded bound bounds, all⟩

theorem spaced_performs (antitone : ∀ {r s t : T}, r ≤ s → t - s ≤ t - r)
    (spaced : Spaced settings path s) {t : Tick Rgb Depth T} {op : Op Rgb Depth Detection T}
    {next : op.Answer → Code Rgb Depth Detection T (Verdict Rgb Depth T)}
    (at_op : s.loop = .ticking t (.step op next)) (r : op.Answer) :
    Spaced settings (path ++ [(s, .performs op r)]) { s with loop := .ticking t (next r) } := by
  obtain ⟨begun, before⟩ := spaced.begun t _ at_op
  obtain ⟨bound, bounds, all⟩ := spaced.bounded
  rw [at_op] at bounds
  cases bounds with
  | ticking stage =>
    obtain ⟨bound', effect⟩ := stage.performs r
    generalize next r = rest at effect
    have same : ∀ t' rest', Loop.ticking t rest = .ticking t' rest' → t'.now ≤ s.time ∧
        ∀ time ∈ path.filterMap detectsAt?, time ≤ t'.now := by
      rintro t' rest' ⟨⟩
      exact ⟨begun, before⟩
    cases effect with
    | sleeps seconds bound stage' => exact spaced.idle rfl le_rfl same ⟨bound, .ticking stage', all⟩
    | sends latest detections bound stage' =>
      exact spaced.idle rfl le_rfl same ⟨bound, .ticking stage', all⟩
    | detects inp due stage' =>
      have grown : (path ++ [(s, Label.performs (.detect inp) r)]).filterMap detectsAt? =
          path.filterMap detectsAt? ++ [t.now] := by
        rw [filterMap_snoc]
        simp only [detectsAt?, at_op, Option.toList_some]
      have upToNow : ∀ time ∈ path.filterMap detectsAt? ++ [t.now], time ≤ t.now := by
        intro time member
        rcases List.mem_append.mp member with earlier | last
        · exact before time earlier
        · exact (List.mem_singleton.mp last).le
      constructor
      · rw [grown, List.pairwise_append]
        refine ⟨spaced.spaced, List.pairwise_singleton _ _, ?_⟩
        intro time earlier now last
        obtain rfl := List.mem_singleton.mp last
        exact fun close => due ((antitone (all time earlier)).trans_lt close)
      · rw [grown]
        exact fun time member => (upToNow time member).trans begun
      · rintro t' rest' ⟨⟩
        rw [grown]
        exact ⟨begun, upToNow⟩
      · rw [grown]
        exact ⟨t.now, .ticking stage', upToNow⟩

theorem spaced_next (antitone : ∀ {r s t : T}, r ≤ s → t - s ≤ t - r) (spaced : Spaced settings path s)
    (moved : Next settings s e s') : Spaced settings (path ++ [(s, e)]) s' := by
  cases moved with
  | elapses later =>
    refine spaced.idle rfl later (fun t rest ticking => ?_) spaced.bounded
    obtain ⟨begun, all⟩ := spaced.begun t rest ticking
    exact ⟨begun.trans later, all⟩
  | matcher own moved =>
    exact spaced.idle rfl le_rfl spaced.begun spaced.bounded
  | enters top =>
    refine spaced.loop rfl nofun fun bound bounds => ?_
    rw [top] at bounds
    cases bounds
    exact .draining _
  | stops top => exact spaced.loop rfl nofun fun bound _ => .ended _ bound
  | gets draining moved =>
    refine spaced.loop rfl nofun fun bound bounds => ?_
    rw [draining] at bounds
    cases bounds
    exact .received _ _
  | stamps received =>
    refine spaced.loop rfl nofun fun bound bounds => ?_
    rw [received] at bounds
    cases bounds
    exact .draining _
  | misses draining moved =>
    refine spaced.loop rfl nofun fun bound bounds => ?_
    rw [draining] at bounds
    cases bounds
    exact .drained _ _ _
  | @ticks v known robbed drained =>
    obtain ⟨bound', stage, above⟩ := @stage_tick _ _ Detection _ _ _ settings v s.time
    obtain ⟨bound, bounds, all⟩ := spaced.bounded
    rw [drained] at bounds
    cases bounds
    refine spaced.idle rfl le_rfl ?_ ⟨bound', .ticking stage, ?_⟩
    · rintro t rest ⟨⟩
      exact ⟨le_rfl, spaced.past⟩
    · rcases above with rfl | rfl
      · exact all
      · exact spaced.past
  | performs r at_op => exact spaced_performs antitone spaced at_op r
  | repeats ended =>
    refine spaced.loop rfl nofun fun bound bounds => ?_
    rw [ended] at bounds
    cases bounds with
    | ticking stage =>
      rw [← stage.continues.2]
      exact .top _
  | exits ended => exact spaced.loop rfl nofun fun bound _ => .ended _ bound
  | raises raised => exact spaced.loop rfl nofun fun bound _ => .ended _ bound

/-- The loop as it comes up, with a subscriber that has just started. -/
def up [Zero T] (time : T) : State Rgb Depth Detection T :=
  { time, loop := .top { lastTick := 0, latestFs := none, latestFsTs := 0 } }

theorem tracked_up [Zero T] (settings : Settings T) (time : T) :
    Tracked settings (up time : State Rgb Depth Detection T) := by
  refine ⟨⟨Nat.zero_le _, fun fs rest held => nomatch held⟩, fun _ => rfl, nofun, nofun, .nil, trivial,
    _, .top _⟩

theorem spaced_up [Zero T] (settings : Settings T) (time : T) :
    Spaced settings [] (up time : State Rgb Depth Detection T) :=
  ⟨.nil, nofun, nofun, _, .top _, nofun⟩

/-- The last of the entries is the latest. -/
theorem le_getLast {α K : Type} [LinearOrder K] {known : List (α × K)}
    (sorted : known.Pairwise (·.2 ≤ ·.2)) {last entry : α × K}
    (newest : known.getLast? = some last) (member : entry ∈ known) : entry.2 ≤ last.2 := by
  obtain ⟨before, rfl⟩ := List.getLast?_eq_some_iff.mp newest
  rcases List.mem_append.mp member with earlier | same
  · exact (List.pairwise_append.mp sorted).2.2 entry earlier last (List.mem_singleton_self last)
  · exact (congrArg (·.2) (List.mem_singleton.mp same)).le

/-- A scene that is about to be sent is what the detector made of the frameset of the tick. -/
structure Looked (settings : Settings T)
    (path : List (State Rgb Depth Detection T × Label Rgb Depth Detection T))
    (s : State Rgb Depth Detection T) : Prop where
  tracked : Tracked settings s
  looked : ∀ t header rest, s.loop = .ticking t (.step (.send header) rest) →
    ∃ fs, t.vars.latestFs = some fs ∧ header.tsNs = fs.tsNs ∧ header.frameSeq = fs.seq ∧
      Detected path t fs header.detections

theorem looked_next (inv : Looked settings path s) (moved : Next settings s e s') :
    Looked settings (path ++ [(s, e)]) s' := by
  have tracked := tracked_next inv.tracked moved
  -- a step that leaves the loop where it is
  have stays (t : Tick Rgb Depth T) (header : SceneHeader Detection)
      (rest : Except Unit Unit → Code Rgb Depth Detection T (Verdict Rgb Depth T))
      (sends : s.loop = .ticking t (.step (.send header) rest)) :
      ∃ fs, t.vars.latestFs = some fs ∧ header.tsNs = fs.tsNs ∧ header.frameSeq = fs.seq ∧
        Detected (path ++ [(s, e)]) t fs header.detections := by
    obtain ⟨fs, latest, ts, seq, p, member, detects⟩ := inv.looked t header rest sends
    exact ⟨fs, latest, ts, seq, p, List.mem_append_left _ member, detects⟩
  refine ⟨tracked, ?_⟩
  cases moved with
  | elapses | matcher => exact stays
  | ticks drained =>
    rintro t header rest sends
    obtain ⟨rfl, begins⟩ := Loop.ticking.inj sends
    exact absurd begins (tick_sends_not _ _ _ _)
  | @performs t op next r at_op =>
    rintro t' header rest sends
    obtain ⟨rfl, begins⟩ := Loop.ticking.inj sends
    obtain ⟨bound, bounds⟩ := inv.tracked.staged
    rw [at_op] at bounds
    cases bounds with
    | ticking stage =>
      obtain ⟨fs, detections, latest, detects, rfl⟩ := stage.sends begins
      exact ⟨fs, latest, rfl, rfl, _, List.mem_append_right path (List.mem_singleton_self _),
        ⟨_, at_op⟩, detects⟩
  | _ =>
    rintro t header rest ⟨⟩

theorem fresh_of_live (antitone : ∀ {r s t : T}, r ≤ s → t - s ≤ t - r)
    (inv : Looked settings path s) (moved : Next settings s e s') (live : Live settings (s, e)) :
    Fresh settings path (s, e) := by
  rintro header r t rest rfl ticking
  obtain ⟨unrobbed, entry, member, recent⟩ := live header r t rest rfl ticking
  have informed := inv.tracked.informed
  rw [ticking] at informed
  cases moved with
  | performs _ at_op =>
    obtain ⟨rfl, rfl⟩ := Loop.ticking.inj (ticking.symm.trans at_op)
    obtain ⟨fs, latest, ts, seq, detected⟩ := inv.looked _ _ _ at_op
    obtain ⟨⟨fs', enqueuedAt⟩, newest, same⟩ :=
      Option.map_eq_some_iff.mp ((informed.newest unrobbed).symm.trans latest)
    obtain rfl : fs' = fs := same
    refine ⟨fs', enqueuedAt, newest, ts, seq, detected, fun old => recent (old.trans_le ?_)⟩
    exact antitone (le_getLast informed.sorted newest member)

end

/-! ## Two framesets -/

section
variable (settings : Settings T) {s : State Rgb Depth Detection T}

/-- The matcher puts a frameset into the empty queue. -/
theorem enqueues (fs : Frameset Rgb Depth) (idle : s.output = {}) :
    ∃ path, Run (Next settings) s path { s with
      output := { queue := [fs] }
      enqueued := s.enqueued ++ [(fs, s.time)]
      robbed := false } := by
  have puts : Output.Next { matcher := some (fs, enqueue fs) } (.performs (.put fs))
      { queue := [fs], matcher := some (fs, .done ()) } := by
    have performs := Output.Next.performs
      (show ({ matcher := some (fs, enqueue fs) } : Output (Frameset Rgb Depth)).matcher =
        some (fs, .step (.put fs) _) by rw [enqueue_eq])
    simpa [QueueOp.run, outputSize] using performs
  have begins : Output.Next s.output (.begins fs) { matcher := some (fs, enqueue fs) } := by
    rw [idle]
    exact .begins rfl
  have run := ((Run.single (show Next settings s _ _ from .matcher rfl begins)).snoc
    (.matcher rfl puts)).snoc (.matcher rfl (.finishes rfl))
  generalize [_] ++ [_] ++ [_] = path at run
  refine ⟨path, ?_⟩
  simpa [puts?, robs, outputSize] using run

/-- The loop takes the only frameset of the queue out and hands it to the detector. -/
theorem takes {v : Vars Rgb Depth T} {fs : Frameset Rgb Depth} (top : s.loop = .top v)
    (one : s.output.queue = [fs]) (forever : settings.onceDeadline = none)
    (due : ¬ s.time - v.lastTick < settings.intervalS)
    (young : ¬ settings.frameMaxAgeS < s.time - s.time) :
    ∃ path, Run (Next settings) s path { s with
      output := { s.output with queue := [] }
      loop := .ticking
        ⟨{ v with latestFs := some fs, latestFsTs := s.time }, s.time, s.enqueued, s.robbed⟩
        (detectScene settings ⟨s.time, some fs, s.time⟩ fs) } := by
  have drain := (Run.single (show Next settings s _ _ from .enters top)).snoc (.gets rfl (.gets one))
  have run := ((drain.snoc (.stamps rfl)).snoc (.misses rfl (.misses rfl))).snoc (.ticks rfl)
  have begins : (tick settings { v with latestFs := some fs, latestFsTs := s.time } s.time :
      Code Rgb Depth Detection T (Verdict Rgb Depth T)) =
        detectScene settings ⟨s.time, some fs, s.time⟩ fs := by
    simp [tick, forever, due, young]
  rw [begins] at run
  exact ⟨_, run⟩

/-- The detector answers, and the scene goes out. -/
theorem publishes {v : Vars Rgb Depth T} {fs : Frameset Rgb Depth} {t : Tick Rgb Depth T}
    (detecting : s.loop = .ticking t (detectScene settings v fs))
    (forever : settings.onceDeadline = none) :
    ∃ path, Run (Next settings) s path { s with loop := .top v } ∧
      ({ s with loop := .ticking t (sendScene settings v fs []) },
        .performs (.send ⟨fs.tsNs, fs.seq, []⟩) (.ok ())) ∈ path := by
  rw [detectScene_eq] at detecting
  have detects := Run.single (show Next settings s _ _ from .performs (some []) detecting)
  have sends := show Next settings { s with loop := .ticking t (sendScene settings v fs []) } _ _ from
    .performs (Except.ok () : Except Unit Unit)
      (congrArg (Loop.ticking t) (sendScene_eq settings v fs ([] : List Detection)))
  simp only [forever, Option.isSome_none, Bool.false_eq_true, if_false] at sends
  refine ⟨_, (detects.snoc sends).snoc (.repeats rfl), ?_⟩
  simp

end

def twicePerSecond : Settings ℤ :=
  { intervalS := 500, frameMaxAgeS := 2000, pollS := 50, onceDeadline := none }

def numbered (seq : Int) : Frameset Unit Unit := ⟨seq, seq, (), (), 0, .null⟩

def waiting (time : ℤ) : State Unit Unit Unit ℤ := { up 0 with time }

def detectingFirst : Loop Unit Unit Unit ℤ :=
  .ticking ⟨⟨0, some (numbered 1), 1000⟩, 1000, [(numbered 1, 1000)], false⟩
    (detectScene twicePerSecond ⟨1000, some (numbered 1), 1000⟩ (numbered 1))

def detectingSecond : Loop Unit Unit Unit ℤ :=
  .ticking ⟨⟨1000, some (numbered 2), 61000⟩, 61000, [(numbered 1, 1000), (numbered 2, 1100)], false⟩
    (detectScene twicePerSecond ⟨61000, some (numbered 2), 61000⟩ (numbered 2))

theorem first_taken : ∃ path, Run (Next twicePerSecond) (up 0) path
    { waiting 1000 with loop := detectingFirst, enqueued := [(numbered 1, 1000)] } := by
  have waits : Run (Next twicePerSecond) (up 0) _ (waiting 1000) :=
    .single (.elapses (by decide))
  obtain ⟨_, arrives⟩ := enqueues twicePerSecond (s := waiting 1000) (numbered 1) rfl
  obtain ⟨_, begins⟩ := takes twicePerSecond
    (s := { waiting 1000 with output := { queue := [numbered 1] }, enqueued := [(numbered 1, 1000)] })
    rfl rfl rfl (by decide) (by decide)
  exact ⟨_, (waits.trans arrives).trans begins⟩

/-! ## The scenes that are published -/

/-- Whatever the detector and the clock do, ticks that run the detector are spaced, and a scene is
fresh when the stream still lives and no frameset was snatched away as the queue was drained. -/
theorem scenes_fresh [Zero T] {settings : Settings T} {s : State Rgb Depth Detection T}
    {path : List (State Rgb Depth Detection T × Label Rgb Depth Detection T)}
    (antitone : ∀ {r s t : T}, r ≤ s → t - s ≤ t - r) {start : T}
    (run : Run (Next settings) (up start) path s) :
    ((path.filterMap detectsAt?).Pairwise fun first second => ¬ second - first < settings.intervalS) ∧
      ∀ before p after, path = before ++ p :: after → Live settings p → Fresh settings before p := by
  constructor
  · exact (Run.invariant_history (fun _ _ => True)
      (fun spaced _ moved => spaced_next antitone spaced moved) run (spaced_up settings start)
      fun _ _ _ _ => trivial).spaced
  · intro before p after split live
    obtain ⟨_, to_p, moved⟩ := run.split split
    have looked := Run.invariant_history (fun _ _ => True)
      (fun inv _ moved => looked_next inv moved) to_p ⟨tracked_up settings start, nofun⟩
      fun _ _ _ _ => trivial
    exact fresh_of_live antitone looked moved live

/-- A detector that answers at once. -/
theorem scenes_fresh_at_once :
    ∃ (before after : List (State Unit Unit Unit ℤ × Label Unit Unit Unit ℤ))
      (p : State Unit Unit Unit ℤ × Label Unit Unit Unit ℤ) (s : State Unit Unit Unit ℤ),
      Run (Next twicePerSecond) (up 0) (before ++ p :: after) s ∧ Fresh twicePerSecond before p ∧
        p.2 = .performs (.send ⟨1, 1, []⟩) (.ok ()) := by
  obtain ⟨path, first⟩ := first_taken
  obtain ⟨_, answers, published⟩ := publishes twicePerSecond
    (s := { waiting 1000 with loop := detectingFirst, enqueued := [(numbered 1, 1000)] }) rfl rfl
  have run := first.trans answers
  obtain ⟨before, after, split⟩ := List.append_of_mem (List.mem_append_right path published)
  refine ⟨before, after, _, _, split ▸ run, ?_, rfl⟩
  refine (scenes_fresh (fun earlier => Int.sub_le_sub_left earlier _) run).2 _ _ _ split ?_
  rintro header r t rest - ⟨⟩
  exact ⟨rfl, _, List.mem_singleton_self _, by decide⟩

/-- The detector runs for a minute. In the meantime a second frameset comes, and then no more. -/
theorem stale_scene_published : ¬ ∀ (settings : Settings ℤ)
    (path : List (State Unit Unit Unit ℤ × Label Unit Unit Unit ℤ)) (s : State Unit Unit Unit ℤ),
    Run (Next settings) (up 0) path s →
      ∀ before p after, path = before ++ p :: after → Fresh settings before p := by
  intro fresh
  obtain ⟨_, first⟩ := first_taken
  have soon := first.snoc (.elapses (show (1000 : ℤ) ≤ 1100 by decide))
  obtain ⟨_, arrives⟩ := enqueues twicePerSecond
    (s := { waiting 1100 with loop := detectingFirst, enqueued := [(numbered 1, 1000)] })
    (numbered 2) rfl
  have minuteLater := (soon.trans arrives).snoc (.elapses (show (1100 : ℤ) ≤ 61000 by decide))
  obtain ⟨_, answers, -⟩ := publishes twicePerSecond
    (s := { waiting 61000 with
      output := { queue := [numbered 2] }
      loop := detectingFirst
      enqueued := [(numbered 1, 1000), (numbered 2, 1100)] }) rfl rfl
  have due : ¬ (61000 : ℤ) - 1000 < twicePerSecond.intervalS := by decide
  have young : ¬ twicePerSecond.frameMaxAgeS < (61000 : ℤ) - 61000 := by decide
  obtain ⟨_, second⟩ := takes twicePerSecond
    (s := { waiting 61000 with
      output := { queue := [numbered 2] }
      loop := .top ⟨1000, some (numbered 1), 1000⟩
      enqueued := [(numbered 1, 1000), (numbered 2, 1100)] }) rfl rfl rfl due young
  obtain ⟨_, answersAgain, published⟩ := publishes twicePerSecond
    (s := { waiting 61000 with
      loop := detectingSecond
      enqueued := [(numbered 1, 1000), (numbered 2, 1100)] }) rfl rfl
  have run := ((minuteLater.trans answers).trans second).trans answersAgain
  obtain ⟨before, after, split⟩ := List.append_of_mem (List.mem_append_right _ published)
  obtain ⟨fs, enqueuedAt, newest, -, -, -, recent⟩ :=
    fresh _ _ _ run before _ after split _ _ _ _ rfl rfl
  obtain ⟨rfl, rfl⟩ := Prod.mk.inj (Option.some.inj newest)
  exact recent (by decide)

end Lexaire.Perception
